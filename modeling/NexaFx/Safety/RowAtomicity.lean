import NexaFx.Lib.Linear
import NexaFx.Safety.LostUpdate
import NexaFx.Safety.WalletInvariant

/-!
# NexaFx — `adjustBalance` is one step

To the other services `adjustBalance` and `getBalance` are single steps,
`Db.adjustBalance` and `Db.getBalance`. Here any number of their calls are
interleaved statement by statement, each statement allowed to fail.

* `rows_linearizable` — the calls that have returned, in some order, are what the
  single steps make of the table as found: each step gives the balance that the
  call returned, and they end with the table as it is. A call that is under way
  or has thrown has no part in it, and the order is only ever extended.

The step of an `adjustBalance` is its commit; until then nobody else changes the
row it has locked, or inserted.
-/

namespace NexaFx

namespace WalletRows

open Async Decimal

-- ---------------------------------------------------------------------------
-- The calls, and what they are as single steps
-- ---------------------------------------------------------------------------

inductive BalanceCall where
  | adjustBalance (accountId : UserId) (currency : String) (delta : ℚ)
  | getBalance (accountId : UserId) (currency : String)
  deriving DecidableEq

def balanceProg (i : ℕ) : BalanceCall → RowProc WalletBalance
  | .adjustBalance accountId currency delta => adjustBalance i accountId currency delta
  | .getBalance accountId currency => getBalance accountId currency

def balances : System BalanceCall RowCmd RowCmd.Reply Err WalletDb WalletBalance where
  prog := balanceProg
  exec := exec
  ready := ready

abbrev BalanceConfig := Config BalanceCall RowCmd RowCmd.Reply Err WalletDb WalletBalance

/-- No call has been made and no row is locked. -/
def unlocked (wallets : List Wallet) : BalanceConfig := ⟨⟨wallets, []⟩, []⟩

/-- The service of `Model.Wallets`, over the same table. -/
def singleStep : Atomic BalanceCall Db ℤ Err WalletDb WalletBalance where
  spec i
    | .adjustBalance accountId currency delta, db => db.adjustBalance i i accountId currency delta
    | .getBalance accountId currency, db =>
      (db.getBalance accountId currency).map fun balance => (balance, db)
  shows s db := db.wallets = s.wallets
  answer := WalletBalance.balance

-- ---------------------------------------------------------------------------
-- What is left of a call
-- ---------------------------------------------------------------------------

section Places

variable (i : ℕ)

/-- The rollback. -/
def undo (e : Err) : RowProc WalletBalance :=
  .await (.rollbackTransaction i) fun
    | .ok _ => .done (.error e)
    | .error e' => .done (.error e')

/-- The commit. -/
def publish (w : Wallet) : RowProc WalletBalance :=
  .await (.commitTransaction i w) fun
    | .ok _ => .done (.ok (toBalance w))
    | .error e => undo i e

/-- A new wallet is saved. -/
def saveNew (w : Wallet) : RowProc WalletBalance :=
  .await (.stageInsert i w) fun
    | .ok _ => publish i w
    | .error e => undo i e

/-- The locked wallet is saved. -/
def saveLocked (w : Wallet) : RowProc WalletBalance :=
  .await (.stageUpdate i w) fun
    | .ok _ => publish i w
    | .error e => undo i e

/-- The locking read. -/
def lockRow (key : WalletKey) (delta : ℚ) : RowProc WalletBalance :=
  .await (.findOneForUpdate i key) fun
    | .ok found =>
      if (adjustedWallet key found delta).balance < 0 then
        undo i (.badRequest "Insufficient balance")
      else if found.isNone then saveNew i (adjustedWallet key found delta)
      else saveLocked i (adjustedWallet key found delta)
    | .error e => undo i e

/-- The whole call. -/
def opened (key : WalletKey) (delta : ℚ) : RowProc WalletBalance :=
  .await .startTransaction fun
    | .ok _ => lockRow i key delta
    | .error e => .done (.error e)

/-- The plain read. -/
def look (key : WalletKey) : RowProc WalletBalance :=
  .await (.findOne key) fun
    | .ok found => .done (.ok (balanceOf key.1 key.2 found))
    | .error e => .done (.error e)

end Places

section Programs

variable {i : ℕ} {accountId : UserId} {currency cur : String} {delta : ℚ}

/-- The same statement, and the same after it. -/
theorem await_ext {c : RowCmd} {next next' : Except Err c.Reply → RowProc WalletBalance}
    (hok : ∀ a, next (.ok a) = next' (.ok a)) (herror : ∀ e, next (.error e) = next' (.error e)) :
    Proc.await c next = Proc.await c next' := by
  refine congrArg _ (funext fun r => ?_)
  cases r with
  | ok a => exact hok a
  | error e => exact herror e

theorem undo_ext (e : Err) {next : Except Err Unit → RowProc WalletBalance}
    (hok : next (.ok ()) = .done (.error e)) (herror : ∀ e', next (.error e') = .done (.error e')) :
    Proc.await (.rollbackTransaction i) next = undo i e :=
  await_ext (fun _ => hok) herror

theorem getBalance_invalid {e : Err} (hcur : validateCurrency currency = .error e) :
    getBalance accountId currency = .done (.error e) := by
  simp [getBalance, hcur, Proc.ofExcept, Proc.bind_eq]

theorem adjustBalance_invalid {e : Err} (hcur : validateCurrency currency = .error e) :
    adjustBalance i accountId currency delta = .done (.error e) := by
  simp [adjustBalance, hcur, Proc.ofExcept, Proc.bind_eq]

theorem adjustBalance_zero (hcur : validateCurrency currency = .ok cur) :
    adjustBalance i accountId currency 0 = getBalance accountId cur := by
  simp [adjustBalance, hcur, Proc.ofExcept, Proc.bind_eq]

theorem getBalance_eq (hcur : validateCurrency currency = .ok cur) :
    getBalance accountId currency = look (accountId, cur) := by
  simp only [getBalance, hcur, Proc.ofExcept, Proc.bind_eq, Proc.done_ok_bind]
  refine await_ext (fun found => ?_) fun _ => rfl
  cases found <;> rfl

theorem adjustBalance_eq (hcur : validateCurrency currency = .ok cur) (hz : delta ≠ 0) :
    adjustBalance i accountId currency delta = opened i (accountId, cur) delta := by
  simp only [adjustBalance, hcur, if_neg hz, Proc.ofExcept, Proc.bind_eq, Proc.done_ok_bind]
  refine await_ext (fun _ => await_ext (fun found => ?_) fun e => undo_ext e rfl fun _ => rfl)
    fun _ => rfl
  change Proc.bind (Proc.bind (Proc.attempt (Proc.bind (Proc.bind
    (Proc.rejectWhen ((adjustedWallet _ found delta).balance < 0) _) _) _)) _) _ =
    if (adjustedWallet _ found delta).balance < 0 then _ else _
  by_cases hneg : (adjustedWallet (accountId, cur) found delta).balance < 0
  · rw [Proc.rejectWhen_pos hneg, if_pos hneg]
    exact undo_ext _ rfl fun _ => rfl
  · rw [Proc.rejectWhen_neg hneg, if_neg hneg]
    cases found with
    | none =>
      refine await_ext (fun _ => await_ext (fun _ => rfl) fun e => ?_) fun e => ?_
      · exact undo_ext e rfl fun _ => rfl
      · exact undo_ext e rfl fun _ => rfl
    | some w =>
      refine await_ext (fun _ => await_ext (fun _ => rfl) fun e => ?_) fun e => ?_
      · exact undo_ext e rfl fun _ => rfl
      · exact undo_ext e rfl fun _ => rfl

end Programs

-- ---------------------------------------------------------------------------
-- Statement by statement
-- ---------------------------------------------------------------------------

/-- The call returns the balance that it reads. -/
inductive Reads (accountId : UserId) (cur : String) : BalanceCall → Prop where
  | get {currency : String} (h : validateCurrency currency = .ok cur) :
    Reads accountId cur (.getBalance accountId currency)
  | zero {currency : String} (h : validateCurrency currency = .ok cur) :
    Reads accountId cur (.adjustBalance accountId currency 0)

/-- The call changes the row under the key by `delta`. -/
inductive Adjusts (key : WalletKey) (delta : ℚ) : BalanceCall → Prop where
  | mk {currency : String} (h : validateCurrency currency = .ok key.2) (hz : delta ≠ 0) :
    Adjusts key delta (.adjustBalance key.1 currency delta)

/-- Where a call may be. Once it has locked the row, or has inserted it, the row
is as the call has found it. -/
inductive Place (i : ℕ) (s : WalletDb) : BalanceCall → RowProc WalletBalance → Prop where
  | ended {k : BalanceCall} (r : Except Err WalletBalance) : Place i s k (.done r)
  | undoes {k : BalanceCall} (e : Err) : Place i s k (undo i e)
  | looks {k : BalanceCall} {key : WalletKey} (h : Reads key.1 key.2 k) : Place i s k (look key)
  | opens {k : BalanceCall} {key : WalletKey} {delta : ℚ} (h : Adjusts key delta k) :
    Place i s k (opened i key delta)
  | locks {k : BalanceCall} {key : WalletKey} {delta : ℚ} (h : Adjusts key delta k) :
    Place i s k (lockRow i key delta)
  | savesNew {k : BalanceCall} {key : WalletKey} {delta : ℚ} (h : Adjusts key delta k)
    (hpos : ¬ (adjustedWallet key none delta).balance < 0) :
    Place i s k (saveNew i (adjustedWallet key none delta))
  | savesLocked {k : BalanceCall} {key : WalletKey} {delta : ℚ} (h : Adjusts key delta k)
    {w : Wallet} (hrow : s.row key = some w) (hlocked : s.lockedBy key = some i)
    (hpos : ¬ (adjustedWallet key (some w) delta).balance < 0) :
    Place i s k (saveLocked i (adjustedWallet key (some w) delta))
  | publishes {k : BalanceCall} {key : WalletKey} {delta : ℚ} (h : Adjusts key delta k)
    (hlocked : s.lockedBy key = some i)
    (hpos : ¬ (adjustedWallet key (s.row key) delta).balance < 0) :
    Place i s k (publish i (adjustedWallet key (s.row key) delta))

/-- The rows that `i` has locked stay as they are. -/
def Leaves (i : ℕ) (s s' : WalletDb) : Prop :=
  ∀ key, s.lockedBy key = some i → s'.lockedBy key = some i ∧ s'.row key = s.row key

/-- What one statement of a call does. -/
structure Does (i : ℕ) (k : BalanceCall) (s s' : WalletDb) (p : RowProc WalletBalance) : Prop where
  place : Place i s' k p
  point : Point singleStep i k s s' p
  others : ∀ j, j ≠ i → Leaves j s s'

section Statements

variable {i : ℕ} {k : BalanceCall} {s s' : WalletDb} {key : WalletKey} {delta : ℚ}

/-- A statement that changes nothing, and does not return. -/
theorem Does.nothing {p : RowProc WalletBalance} (h : Place i s k p)
    (hopen : ∀ r, p ≠ .done (.ok r)) : Does i k s s p :=
  ⟨h, Or.inl ⟨fun _ hdb => hdb, hopen⟩, fun _ _ _ hlocked => ⟨hlocked, rfl⟩⟩

theorem Does.undoes (e : Err) : Does i k s s (undo i e) :=
  .nothing (.undoes e) fun _ h => by cases h

theorem Place.later {p : RowProc WalletBalance} (h : Place i s k p) (hleaves : Leaves i s s') :
    Place i s' k p := by
  cases h with
  | ended r => exact .ended r
  | undoes e => exact .undoes e
  | looks h => exact .looks h
  | opens h => exact .opens h
  | locks h => exact .locks h
  | savesNew h hpos => exact .savesNew h hpos
  | savesLocked h hrow hlocked hpos =>
    obtain ⟨hlocked', hrow'⟩ := hleaves _ hlocked
    exact .savesLocked h (hrow'.trans hrow) hlocked' hpos
  | publishes h hlocked hpos =>
    obtain ⟨hlocked', hrow'⟩ := hleaves _ hlocked
    rw [← hrow'] at hpos ⊢
    exact .publishes h hlocked' hpos

/-- A row that somebody locks was free. -/
theorem leaves_lock (hfree : s.lockedBy key = none) {j : ℕ} : Leaves j s (s.lock key i) := by
  intro key' hlocked
  have hne : key ≠ key' := by
    rintro rfl
    rw [hfree] at hlocked
    cases hlocked
  exact ⟨by rw [WalletDb.lockedBy_lock, if_neg hne, hlocked], rfl⟩

/-- The read of a balance. -/
theorem does_look (h : Reads key.1 key.2 k) :
    Does i k s s (.done (.ok (balanceOf key.1 key.2 (s.row key)))) := by
  refine ⟨.ended _, Or.inr ⟨_, rfl, fun db hdb => ⟨db, ?_, hdb⟩⟩, fun _ _ _ h => ⟨h, rfl⟩⟩
  have hbalance : (balanceOf key.1 key.2 (s.row key)).balance = db.cents key.1 key.2 := by
    have hrow : s.row key = db.wallet key.1 key.2 := by
      rw [WalletDb.row, show s.wallets = db.wallets from hdb.symm]
      rfl
    rw [hrow, Db.cents]
    cases db.wallet key.1 key.2 <;> rfl
  show _ = Except.ok ((balanceOf key.1 key.2 (s.row key)).balance, db)
  rw [hbalance]
  cases h with
  | get hcur => simp [singleStep, Db.getBalance, hcur, Except.map]
  | zero hcur => simp [singleStep, Db.adjustBalance, hcur]

theorem spec_adjustBalance (i : ℕ) (accountId : UserId) (currency : String) (delta : ℚ) (db : Db) :
    singleStep.spec i (.adjustBalance accountId currency delta) db =
      db.adjustBalance i i accountId currency delta := by
  simp only [singleStep]

/-- The single step, for the row that is found. -/
theorem adjustBalance_single {db : Db} {currency : String} {found : Option Wallet}
    (hcur : validateCurrency currency = .ok key.2) (hz : delta ≠ 0)
    (hrow : db.wallet key.1 key.2 = found) (hpos : ¬ (adjustedWallet key found delta).balance < 0) :
    db.adjustBalance i i key.1 currency delta = .ok ((adjustedWallet key found delta).balance,
      db.moveBalance i i (found.getD (.create key.1 key.2))
        (adjustedWallet key found delta).balance) := by
  unfold Db.adjustBalance
  simp only [hcur, if_neg hz, hrow]
  exact if_neg hpos

/-- **The commit** is the single step. -/
theorem does_publish (h : Adjusts key delta k) (hlocked : s.lockedBy key = some i)
    (hpos : ¬ (adjustedWallet key (s.row key) delta).balance < 0) :
    Does i k s ((s.put (adjustedWallet key (s.row key) delta)).unlock i)
      (.done (.ok (toBalance (adjustedWallet key (s.row key) delta)))) := by
  obtain ⟨hcur, hz⟩ := h
  have hkey : (adjustedWallet key (s.row key) delta).key = key := by
    cases hrow : s.row key with
    | none => rfl
    | some w => exact (WalletDb.key_of_row hrow : w.key = key)
  refine ⟨.ended _, Or.inr ⟨_, rfl, fun db hdb => ?_⟩, fun j hj key' hlocked' => ?_⟩
  · have hwallets : db.wallets = s.wallets := hdb
    have hrow : db.wallet key.1 key.2 = s.row key := by
      rw [WalletDb.row, ← hwallets]
      rfl
    refine ⟨db.moveBalance i i ((s.row key).getD (.create key.1 key.2))
      (adjustedWallet key (s.row key) delta).balance, ?_, ?_⟩
    · rw [spec_adjustBalance, adjustBalance_single hcur hz hrow hpos]
      rfl
    · show Db.wallets _ = Table.put _ _ s.wallets
      rw [moveBalance_wallets, hwallets]
      rfl
  · have hne : (adjustedWallet key (s.row key) delta).key ≠ key' := by
      rw [hkey]
      rintro rfl
      rw [hlocked] at hlocked'
      exact hj (Option.some.inj hlocked').symm
    refine ⟨WalletDb.lockedBy_unlock hlocked' hj, ?_⟩
    rw [WalletDb.row_unlock, WalletDb.row_put, if_neg hne]

/-- The locking read: the row is free when it is there. -/
theorem does_lock (h : Adjusts key delta k) (hready : ready (.findOneForUpdate i key) s = true)
    {next : Except Err (Option Wallet) → RowProc WalletBalance}
    (hnext : lockRow i key delta = .await (.findOneForUpdate i key) next) :
    Does i k s (after (exec (.findOneForUpdate i key) s) s)
      (next (reply (exec (.findOneForUpdate i key) s))) := by
  cases hnext
  cases hrow : s.row key with
  | none =>
    have hexec : exec (.findOneForUpdate i key) s = .ok (none, s) := by
      rw [exec, hrow]
    rw [hexec]
    show Does i k s s (if _ then _ else _)
    split
    · exact .undoes _
    · rename_i hpos
      exact .nothing (.savesNew h hpos) fun _ h => by cases h
  | some w =>
    have hexec : exec (.findOneForUpdate i key) s = .ok (some w, s.lock key i) := by
      rw [exec, hrow]
    have hfree : s.lockedBy key = none := by
      simpa [ready, hrow] using hready
    have hothers : ∀ j, j ≠ i → Leaves j s (s.lock key i) := fun _ _ => leaves_lock hfree
    rw [hexec]
    show Does i k s (s.lock key i) (if _ then _ else _)
    split
    · exact ⟨.undoes _, Or.inl ⟨fun _ hdb => hdb, fun _ h => by cases h⟩, hothers⟩
    · rename_i hpos
      have hlocked : (s.lock key i).lockedBy key = some i := by
        rw [WalletDb.lockedBy_lock, if_pos rfl]
      exact ⟨.savesLocked h hrow hlocked hpos,
        Or.inl ⟨fun _ hdb => hdb, fun _ h => by cases h⟩, hothers⟩

/-- The insert: it is refused when the wallet exists by now. -/
theorem does_saveNew (h : Adjusts key delta k)
    (hpos : ¬ (adjustedWallet key none delta).balance < 0)
    (hready : ready (.stageInsert i (adjustedWallet key none delta)) s = true)
    {next : Except Err Unit → RowProc WalletBalance}
    (hnext : saveNew i (adjustedWallet key none delta) =
      .await (.stageInsert i (adjustedWallet key none delta)) next) :
    Does i k s (after (exec (.stageInsert i (adjustedWallet key none delta)) s) s)
      (next (reply (exec (.stageInsert i (adjustedWallet key none delta)) s))) := by
  cases hnext
  have hkey : (adjustedWallet key none delta).key = key := rfl
  cases hrow : s.row key with
  | some w =>
    have hexec : exec (.stageInsert i (adjustedWallet key none delta)) s =
        .error .uniqueViolation := by
      rw [exec, hkey, hrow]
    rw [hexec]
    exact .undoes _
  | none =>
    have hexec : exec (.stageInsert i (adjustedWallet key none delta)) s =
        .ok ((), s.lock key i) := by
      rw [exec, hkey, hrow]
    have hfree : s.lockedBy key = none := by
      simpa [ready, hkey, hrow] using hready
    have hlocked : (s.lock key i).lockedBy key = some i := by
      rw [WalletDb.lockedBy_lock, if_pos rfl]
    rw [hexec]
    refine ⟨?_, Or.inl ⟨fun _ hdb => hdb, fun _ h => by cases h⟩, fun _ _ => leaves_lock hfree⟩
    have hplace : Place i (s.lock key i) k (publish i (adjustedWallet key none delta)) := by
      rw [← hrow] at hpos ⊢
      exact .publishes h hlocked hpos
    exact hplace

/-- **Step lemma.** -/
theorem Place.does {c : RowCmd} {next : Except Err c.Reply → RowProc WalletBalance}
    (h : Place i s k (.await c next)) (hready : ready c s = true) (fault : Option Err) :
    Does i k s (after (outcome fault (exec c s)) s) (next (reply (outcome fault (exec c s)))) := by
  generalize hp : Proc.await c next = p at h
  cases h with
  | ended r => cases hp
  | undoes e =>
    cases hp
    cases fault with
    | some e' => exact .nothing (.ended _) fun _ h => by cases h
    | none =>
      refine ⟨.ended _, Or.inl ⟨fun _ hdb => hdb, fun _ h => by cases h⟩, ?_⟩
      exact fun j hj key hlocked => ⟨WalletDb.lockedBy_unlock hlocked hj, rfl⟩
  | looks h =>
    cases hp
    cases fault with
    | some e => exact .nothing (.ended _) fun _ h => by cases h
    | none => exact does_look h
  | opens h =>
    cases hp
    cases fault with
    | some e => exact .nothing (.ended _) fun _ h => by cases h
    | none => exact .nothing (.locks h) fun _ h => by cases h
  | locks h =>
    cases hp
    cases fault with
    | some e => exact .undoes e
    | none => exact does_lock h hready rfl
  | savesNew h hpos =>
    cases hp
    cases fault with
    | some e => exact .undoes e
    | none => exact does_saveNew h hpos hready rfl
  | savesLocked h hrow hlocked hpos =>
    cases hp
    cases fault with
    | some e => exact .undoes e
    | none =>
      rw [← hrow] at hpos ⊢
      exact .nothing (.publishes h hlocked hpos) fun _ h => by cases h
  | publishes h hlocked hpos =>
    cases hp
    cases fault with
    | some e => exact .undoes e
    | none => exact does_publish h hlocked hpos

end Statements

-- ---------------------------------------------------------------------------
-- All calls
-- ---------------------------------------------------------------------------

/-- A normalized code is left as it is. -/
theorem validateCurrency_normalized {currency cur : String}
    (h : validateCurrency currency = .ok cur) : validateCurrency cur = .ok cur := by
  obtain rfl := validateCurrency_ok h
  unfold validateCurrency at h ⊢
  split at h
  · rename_i hsupported
    rw [normalizeCurrencyCode_idem, if_pos hsupported]
  · cases h

theorem place_prog (i : ℕ) (s : WalletDb) (k : BalanceCall) :
    Place i s k (balanceProg i k) ∧ ∀ b, balanceProg i k ≠ .done (.ok b) := by
  cases k with
  | getBalance accountId currency =>
    show Place i s _ (getBalance accountId currency) ∧ ∀ b, getBalance accountId currency ≠ _
    cases hcur : validateCurrency currency with
    | error e =>
      rw [getBalance_invalid hcur]
      exact ⟨.ended _, fun _ h => by cases h⟩
    | ok cur =>
      rw [getBalance_eq hcur]
      exact ⟨.looks (.get hcur), fun _ h => by cases h⟩
  | adjustBalance accountId currency delta =>
    show Place i s _ (adjustBalance i accountId currency delta) ∧
      ∀ b, adjustBalance i accountId currency delta ≠ _
    cases hcur : validateCurrency currency with
    | error e =>
      rw [adjustBalance_invalid hcur]
      exact ⟨.ended _, fun _ h => by cases h⟩
    | ok cur =>
      rcases eq_or_ne delta 0 with rfl | hz
      · rw [adjustBalance_zero hcur, getBalance_eq (validateCurrency_normalized hcur)]
        exact ⟨.looks (.zero hcur), fun _ h => by cases h⟩
      · rw [adjustBalance_eq hcur hz]
        exact ⟨.opens (.mk hcur hz), fun _ h => by cases h⟩

theorem linearizes : Linearizes balances singleStep (fun i k p s => Place i s k p) Leaves where
  begins i k s := place_prog i s k
  later _ _ _ _ _ h hleaves := h.later hleaves
  step _ _ _ _ _ fault h hready :=
    have hdoes := h.does hready fault
    ⟨hdoes.place, hdoes.point, hdoes.others⟩

/-- **`adjustBalance` and `getBalance` are single steps.** -/
theorem rows_linearizable {db : Db} {cfg cfg' : BalanceConfig}
    (h : Reach balances .free (unlocked db.wallets) cfg) (h' : Reach balances .free cfg cfg') :
    ∃ ops later,
      Linearized singleStep db ops cfg ∧ Linearized singleStep db (ops ++ later) cfg' := by
  have hshows : singleStep.shows (unlocked db.wallets).state db := rfl
  exact linearizes.reach rfl hshows h h'

/-- Two debits of 70.00 from 100.00 at once, until the first has returned. -/
def firstDebit : List (Event BalanceCall Err) :=
  [.call 0 (.adjustBalance 1 "USD" (-70)), .call 1 (.adjustBalance 1 " usd" (-70))] ++
    [.step 0 none, .step 1 none, .step 0 none, .step 1 none, .step 0 none, .step 0 none]

/-- The second one has waited for the lock, and is refused. -/
def secondDebit : List (Event BalanceCall Err) := [.step 1 none, .step 1 none]

def afterFirst : BalanceConfig := balances.play (unlocked hundred) firstDebit

def afterSecond : BalanceConfig := balances.play afterFirst secondDebit

theorem rows_linearizable_twoDebits :
    (∃ ops later, Linearized singleStep (.deployed hundred) ops afterFirst ∧
      Linearized singleStep (.deployed hundred) (ops ++ later) afterSecond) ∧
    afterFirst.ended 1 = false ∧ afterSecond.ended 1 = true ∧
    afterSecond.state.cents (1, "USD") = 3000 := by
  have hfirst : Reach balances .free (unlocked (Db.deployed hundred).wallets) afterFirst :=
    Reach.refl.play firstDebit
  have hsecond : Reach balances .free afterFirst afterSecond := Reach.refl.play secondDebit
  exact ⟨rows_linearizable hfirst hsecond, by decide +kernel, by decide +kernel, by decide +kernel⟩

end WalletRows

end NexaFx
