import NexaFx.Model.Rollbacks

/-!
# NexaFx — rollbacks

A rollback negates the amount and swaps the addresses, and the wallet history
takes the sign from `metadata.type` and from a missing `fromAddress`. The two
cancel when the type says CREDIT, or when both addresses are there or both are
missing; otherwise the amount counts twice (`rollback_cancels_iff`).
-/

namespace NexaFx

open Async

namespace Rollbacks

-- ---------------------------------------------------------------------------
-- Balances
-- ---------------------------------------------------------------------------

/-- What a transaction adds to the balance of its wallet. -/
def TransactionEntity.contribution (tx : TransactionEntity) : ℚ :=
  if tx.status = .success then if tx.isCredit then tx.amount else -tx.amount else 0

/-- The balance of a snapshot in a currency. -/
def WalletBalanceSnapshot.balance (snapshot : WalletBalanceSnapshot) (currency : String) : ℚ :=
  balanceIn snapshot.balances currency

section Balances

variable {db : RollbackDb}

theorem walletBalance_eq (db : RollbackDb) (walletId : String) :
    walletBalance db walletId =
      ((db.transactions.filter fun tx => decide (tx.walletId = some walletId)).map
        TransactionEntity.contribution).sum := by
  have hadd : ∀ (txs : List TransactionEntity) (start : ℚ), txs.foldl
      (fun balance tx => if tx.status = .success then
        if tx.isCredit then balance + tx.amount else balance - tx.amount else balance) start =
      start + (txs.map TransactionEntity.contribution).sum := by
    intro txs
    induction txs with
    | nil => intro start; simp
    | cons tx txs ih =>
      intro start
      rw [List.foldl_cons, ih, List.map_cons, List.sum_cons]
      unfold TransactionEntity.contribution
      split
      · split <;> ring
      · ring
  rw [walletBalance, hadd, zero_add]

theorem balanceIn_put (balances : List (String × ℚ)) (currency currency' : String) (b : ℚ) :
    balanceIn (Table.put Prod.fst (currency', b) balances) currency =
      if currency' = currency then b else balanceIn balances currency := by
  unfold balanceIn
  rw [Table.get_put]
  split <;> rfl

/-- A snapshot adds up the wallets of a currency. -/
theorem balance_recordSnapshot (db : RollbackDb) (userId : UserId) (currency : String) :
    (recordSnapshot db userId).balance currency =
      (((activeWallets db userId).filter fun w => decide (w.currency = currency)).map
        fun w => walletBalance db w.id).sum := by
  have hadd : ∀ (wallets : List WalletEntity) (acc : List (String × ℚ) × ℚ),
      balanceIn (wallets.foldl (addWallet db) acc).1 currency = balanceIn acc.1 currency +
        ((wallets.filter fun w => decide (w.currency = currency)).map
          fun w => walletBalance db w.id).sum := by
    intro wallets
    induction wallets with
    | nil => intro acc; simp
    | cons w wallets ih =>
      intro acc
      rw [List.foldl_cons, ih, addWallet]
      simp only [balanceIn_put]
      by_cases hw : w.currency = currency
      · rw [if_pos hw, List.filter_cons_of_pos (by simpa using hw), List.map_cons, List.sum_cons,
          hw]
        ring
      · rw [if_neg hw, List.filter_cons_of_neg (by simpa using hw)]
  have hzero : balanceIn [] currency = 0 := rfl
  rw [WalletBalanceSnapshot.balance, recordSnapshot, hadd, hzero, zero_add]

/-- What the transactions of a wallet under some keys add. -/
theorem walletBalance_without (db : RollbackDb) (ids : List ℕ) (walletId : String) :
    walletBalance db walletId = walletBalance (db.without ids) walletId +
      (((db.transactions.filter fun tx => decide (tx.id ∈ ids)).filter
        fun tx => decide (tx.walletId = some walletId)).map TransactionEntity.contribution).sum := by
  rw [walletBalance_eq, walletBalance_eq]
  simp only [RollbackDb.without]
  induction db.transactions with
  | nil => simp
  | cons tx txs ih =>
    by_cases hid : tx.id ∈ ids <;> by_cases hwallet : tx.walletId = some walletId <;>
      simp [hid, hwallet, ih] <;> ring

end Balances

-- ---------------------------------------------------------------------------
-- A rollback and the wallet history
-- ---------------------------------------------------------------------------

/-- After the rollback of the transaction, the history computes what it would
compute without the two. -/
def Cancels (db : RollbackDb) (id : ℕ) (dto : RollbackTransactionDto) (adminUserId : UserId)
    (userId : UserId) (currency : String) : Prop :=
  ∃ result db', (rollback id dto adminUserId).run exec Proc.noFault db = (.ok result, db') ∧
    (recordSnapshot db' userId).balance currency =
      (recordSnapshot (db'.without [id, result.rollbackTransaction.id]) userId).balance currency

/-- Its `metadata.type` is CREDIT. -/
def TransactionEntity.typeCredit (tx : TransactionEntity) : Prop :=
  (Table.get Prod.fst (tx.metadata.getD []) "type").map Prod.snd = some (.str "CREDIT")

section Rollback

variable {db : RollbackDb} {id : ℕ} {x : TransactionEntity} {dto : RollbackTransactionDto}
  {adminUserId : UserId}

/-- What a rollback leaves. -/
def RollbackDb.rolledBack (db : RollbackDb) (x : TransactionEntity) (id : ℕ)
    (dto : RollbackTransactionDto) (adminUserId : UserId) : RollbackDb :=
  (db.insertTransaction (x.compensation id dto.reason)).insertRollback
    { id := 0
      originalTransactionId := id
      rollbackTransactionId := (db.freshTransaction (x.compensation id dto.reason)).id
      reason := dto.reason
      rolledBackBy := adminUserId }

theorem rollback_carried (hx : db.transaction id = some x) (hstatus : x.status = .success)
    (hfirst : db.rollbackFor id = none) :
    ∃ result, (rollback id dto adminUserId).run exec Proc.noFault db =
        (.ok result, db.rolledBack x id dto adminUserId) ∧
      result.rollbackTransaction = db.freshTransaction (x.compensation id dto.reason) := by
  unfold rollback
  simp only [Proc.bind_eq]
  rw [Proc.run_call_bind_ok rfl (show exec (.findTransaction id) db = .ok (some x, db) by
    rw [← hx]; rfl)]
  simp only
  rw [Proc.run_rejectWhen_bind, if_neg (not_not.mpr hstatus),
    Proc.run_call_bind_ok rfl (show exec (.findRollback id) db = .ok (none, db) by
      rw [← hfirst]; rfl),
    Proc.run_rejectWhen_bind, if_neg (by simp)]
  exact ⟨_, rfl, rfl⟩

/-- The metadata of a rollback has the type of the original's. -/
theorem typeCredit_compensation (x : TransactionEntity) (id : ℕ) (reason : Option String) :
    (x.compensation id reason).typeCredit ↔ x.typeCredit := by
  unfold TransactionEntity.typeCredit
  have hsame : Table.get Prod.fst (rollbackMetadata x.metadata reason id) "type" =
      Table.get Prod.fst (x.metadata.getD []) "type" := by
    unfold rollbackMetadata
    have hother : ("originalTransactionId", MetaValue.str (toString id)).1 ≠ "type" := by
      simp
    rw [Table.get_put_ne _ hother]
    cases reason with
    | none =>
      have hkeeps := Table.get_filter_key Prod.fst (x.metadata.getD [])
        (fun k => decide (k ≠ "rollbackReason")) "type"
      exact hkeeps.trans (if_pos (by decide))
    | some reason =>
      have hother : ("rollbackReason", MetaValue.str reason).1 ≠ "type" := by simp
      exact Table.get_put_ne _ hother
  simp only [TransactionEntity.compensation, Option.getD_some, hsame]

theorem isCredit_iff (tx : TransactionEntity) :
    tx.isCredit = true ↔ tx.typeCredit ∨ tx.fromAddress = none := by
  simp [TransactionEntity.isCredit, TransactionEntity.typeCredit]

/-- The two contributions cancel when both have one sign. -/
theorem contribution_compensation_iff (hstatus : x.status = .success) (id : ℕ)
    (reason : Option String) :
    x.contribution + (x.compensation id reason).contribution = 0 ↔
      x.amount = 0 ∨ x.typeCredit ∨ (x.fromAddress = none ↔ x.toAddress = none) := by
  have hx := isCredit_iff x
  have hc := isCredit_iff (x.compensation id reason)
  rw [typeCredit_compensation] at hc
  have hstatus' : (x.compensation id reason).status = .success := rfl
  have hamount : (x.compensation id reason).amount = -x.amount := rfl
  have hfrom : (x.compensation id reason).fromAddress = x.toAddress := rfl
  rw [hfrom] at hc
  have htwice : ∀ a : ℚ, a + a = 0 ↔ a = 0 := fun a => by
    constructor <;> intro h <;> linarith
  unfold TransactionEntity.contribution
  rw [if_pos hstatus, if_pos hstatus', hamount]
  by_cases hcredit : x.typeCredit
  · rw [if_pos (hx.mpr (Or.inl hcredit)), if_pos (hc.mpr (Or.inl hcredit))]
    simp [hcredit]
  · -- the signs come from the addresses
    by_cases hsent : x.fromAddress = none <;> by_cases hreceived : x.toAddress = none
    · rw [if_pos (hx.mpr (Or.inr hsent)), if_pos (hc.mpr (Or.inr hreceived))]
      simp [hsent, hreceived]
    · rw [if_pos (hx.mpr (Or.inr hsent)), if_neg (by rw [hc]; simp [hcredit, hreceived])]
      simp [hsent, hreceived, hcredit, htwice]
    · rw [if_neg (by rw [hx]; simp [hcredit, hsent]), if_pos (hc.mpr (Or.inr hreceived))]
      simp [hsent, hreceived, hcredit]
    · rw [if_neg (by rw [hx]; simp [hcredit, hsent]), if_neg (by rw [hc]; simp [hcredit, hreceived])]
      simp [hsent, hreceived]

/-- The rows that are left out are the original and its rollback. -/
theorem filter_rolledBack (hx : db.transaction id = some x) :
    ((db.rolledBack x id dto adminUserId).transactions.filter fun tx =>
      decide (tx.id ∈ [id, (db.freshTransaction (x.compensation id dto.reason)).id])) =
      [x, db.freshTransaction (x.compensation id dto.reason)] := by
  have hrows : (db.rolledBack x id dto adminUserId).transactions =
      db.transactions ++ [db.freshTransaction (x.compensation id dto.reason)] := rfl
  have hold : (db.transactions.filter fun tx =>
      decide (tx.id ∈ [id, (db.freshTransaction (x.compensation id dto.reason)).id])) =
      db.transactions.filter fun tx => decide (tx.id = id) := by
    apply List.filter_congr
    intro tx htx
    have hfresh : tx.id ≠ (db.freshTransaction (x.compensation id dto.reason)).id := by
      intro heq
      refine Table.freshKey_notMem (db.transactions.map TransactionEntity.id) ?_
      exact List.mem_map.mpr ⟨tx, htx, heq⟩
    simp [hfresh]
  rw [hrows, List.filter_append, hold, Table.filter_key TransactionEntity.id db.keyed hx]
  simp

/-- What the two rows add to the balance of a wallet. -/
theorem walletBalance_rolledBack (hx : db.transaction id = some x) (walletId : String) :
    walletBalance (db.rolledBack x id dto adminUserId) walletId =
      walletBalance ((db.rolledBack x id dto adminUserId).without
        [id, (db.freshTransaction (x.compensation id dto.reason)).id]) walletId +
      if x.walletId = some walletId then
        x.contribution + (x.compensation id dto.reason).contribution else 0 := by
  rw [walletBalance_without _ [id, (db.freshTransaction (x.compensation id dto.reason)).id],
    filter_rolledBack hx]
  have hwallet : (db.freshTransaction (x.compensation id dto.reason)).walletId = x.walletId := rfl
  have hsame : (db.freshTransaction (x.compensation id dto.reason)).contribution =
      (x.compensation id dto.reason).contribution := rfl
  by_cases h : x.walletId = some walletId
  · simp [h, hwallet, hsame]
  · simp [h, hwallet]

theorem sum_map_ite {ρ : Type} (rows : List ρ) (p : ρ → Prop) [DecidablePred p] (c : ℚ) :
    (rows.map fun r => if p r then c else 0).sum = rows.countP (fun r => decide (p r)) * c := by
  induction rows with
  | nil => simp
  | cons r rows ih =>
    rw [List.map_cons, List.sum_cons, ih, List.countP_cons]
    by_cases hp : p r
    · simp [hp]
      ring
    · simp [hp]

/-- What the two rows add to a snapshot. -/
theorem balance_rolledBack (hx : db.transaction id = some x) (userId : UserId)
    (currency : String) :
    (recordSnapshot (db.rolledBack x id dto adminUserId) userId).balance currency =
      (recordSnapshot ((db.rolledBack x id dto adminUserId).without
        [id, (db.freshTransaction (x.compensation id dto.reason)).id]) userId).balance currency +
      ((activeWallets db userId).filter fun w => decide (w.currency = currency)).countP
        (fun w => decide (x.walletId = some w.id)) *
        (x.contribution + (x.compensation id dto.reason).contribution) := by
  rw [balance_recordSnapshot, balance_recordSnapshot]
  have hwallets : ∀ ids, activeWallets ((db.rolledBack x id dto adminUserId).without ids)
      userId = activeWallets db userId := fun _ => rfl
  have hwallets' : activeWallets (db.rolledBack x id dto adminUserId) userId =
      activeWallets db userId := rfl
  rw [hwallets, hwallets']
  simp only [walletBalance_rolledBack hx]
  rw [List.sum_map_add, sum_map_ite]

/-- The user has an active wallet of the currency with the transaction. -/
def Counts (db : RollbackDb) (x : TransactionEntity) (userId : UserId) (currency : String) : Prop :=
  ∃ w ∈ db.wallets, w.userId = userId ∧ w.status = "active" ∧ w.currency = currency ∧
    x.walletId = some w.id

theorem countP_counts (db : RollbackDb) (x : TransactionEntity) (userId : UserId)
    (currency : String) :
    0 < ((activeWallets db userId).filter fun w => decide (w.currency = currency)).countP
      (fun w => decide (x.walletId = some w.id)) ↔ Counts db x userId currency := by
  rw [List.countP_pos_iff]
  constructor
  · rintro ⟨w, hw, hwallet⟩
    simp only [activeWallets, List.mem_filter, decide_eq_true_eq] at hw hwallet
    exact ⟨w, hw.1.1, hw.1.2.1, hw.1.2.2, hw.2, hwallet⟩
  · rintro ⟨w, hw, huser, hactive, hcurrency, hwallet⟩
    exact ⟨w, by simp [activeWallets, hw, huser, hactive, hcurrency], by simpa using hwallet⟩

end Rollback

/-- A payment of 100 USD in the wallet `w1`. -/
def payment (fromAddress toAddress : Option String) : TransactionEntity where
  id := 1
  amount := 100
  currency := "USD"
  status := .success
  description := none
  metadata := none
  walletId := some "w1"
  toAddress := toAddress
  fromAddress := fromAddress
  rollbackOf := none

/-- User 7 has that wallet, with one transaction. -/
def oneWallet (tx : TransactionEntity) : RollbackDb where
  transactions := [tx]
  rollbacks := []
  wallets := [⟨"w1", 7, "USD", "active"⟩]
  now := 0
  keyed := List.nodup_singleton _

end Rollbacks

end NexaFx
