import NexaFx.Model.BulkPayments

/-!
# NexaFx — what is left of a bulk payment

What `processBulkPayment` leaves behind for every pattern of failures of its
awaited steps (`BulkFaults`). The update in the `catch` of an item is not
caught: when it fails, the loop ends and the payment stays PROCESSING.

* `Processed` — what the loop makes of the items.
* `processItems_run` — it does so when every item settles.

Main result: `bulkPayment_agrees_iff`.
-/

namespace NexaFx

open Async Decimal Proc

namespace BulkPayments

-- ---------------------------------------------------------------------------
-- Failure patterns
-- ---------------------------------------------------------------------------

/-- With what the awaited steps fail. -/
structure BulkFaults where
  find : Option Thrown
  start : Option Thrown
  load : Option Thrown
  save : ItemId → Option Thrown
  succeed : ItemId → Option Thrown
  fail : ItemId → Option Thrown
  finish : Option Thrown

def BulkFaults.inject (p : BulkFaults) : BulkCmd → Option Thrown
  | .findPayment _ => p.find
  | .start _ => p.start
  | .findItems _ => p.load
  | .saveTransaction item .. => p.save item
  | .updateItem id (.success _) => p.succeed id
  | .updateItem id (.failed _) => p.fail id
  | .finish .. => p.finish
  | _ => none

theorem BulkFaults.inject_saveTransaction (p : BulkFaults) (item : ItemId) (amount : ℚ)
    (currency toAddress description : String) :
    p.inject (.saveTransaction item amount currency toAddress description) = p.save item := rfl

theorem BulkFaults.inject_success (p : BulkFaults) (id : ItemId) (transactionId : TransactionId) :
    p.inject (.updateItem id (.success transactionId)) = p.succeed id := rfl

theorem BulkFaults.inject_failed (p : BulkFaults) (id : ItemId) (error : String) :
    p.inject (.updateItem id (.failed error)) = p.fail id := rfl

/-- Both writes of the item go through. -/
def BulkFaults.Pays (p : BulkFaults) (id : ItemId) : Prop := p.save id = none ∧ p.succeed id = none

instance (p : BulkFaults) (id : ItemId) : Decidable (p.Pays id) :=
  inferInstanceAs (Decidable (_ ∧ _))

/-- The item is written as it is, or as failed. -/
def BulkFaults.Settles (p : BulkFaults) (id : ItemId) : Prop := p.Pays id ∨ p.fail id = none

/-- The loop over these items ends, and all around it goes through. -/
structure BulkFaults.Completes (p : BulkFaults) (ids : List ItemId) : Prop where
  find : p.find = none
  start : p.start = none
  load : p.load = none
  items : ∀ id ∈ ids, p.Settles id
  finish : p.finish = none

-- ---------------------------------------------------------------------------
-- One item
-- ---------------------------------------------------------------------------

section Items

variable {p : BulkFaults} {db db' : BulkDb} {bulkPayment : BulkPaymentEntity}
  {item : BulkPaymentItemEntity} {items : List BulkPaymentItemEntity}

/-- What the loop makes of a row: one of its `items` is stored with the
transaction that is created for it, or as failed. -/
structure Outcome (p : BulkFaults) (ids : List ItemId) (db' : BulkDb)
    (r r' : BulkPaymentItemEntity) : Prop where
  id : r'.id = r.id
  bulkPaymentId : r'.bulkPaymentId = r.bulkPaymentId
  amount : r'.amount = r.amount
  kept : r.id ∉ ids → r' = r
  paid : r.id ∈ ids → p.Pays r.id → r'.status = .success ∧
    ∃ tx ∈ db'.transactionsFor r.id, r'.transactionId = some tx.id
  failed : r.id ∈ ids → ¬ p.Pays r.id → r'.status = .failed ∧ r'.transactionId = r.transactionId

/-- What the loop does for its `items`. -/
structure Processed (p : BulkFaults) (ids : List ItemId) (db db' : BulkDb) : Prop where
  payments : db'.payments = db.payments
  items : ∃ f, db'.items = db.items.map f ∧ ∀ r, Outcome p ids db' r (f r)
  transactions : ∀ id, ∃ txs, db'.transactionsFor id = db.transactionsFor id ++ txs ∧
    txs.length = if id ∈ ids ∧ p.save id = none then 1 else 0

theorem Processed.nil (db : BulkDb) : Processed p [] db db where
  payments := rfl
  items := ⟨id, (List.map_id _).symm, fun r => ⟨rfl, rfl, rfl, fun _ => rfl,
    fun h => absurd h List.not_mem_nil, fun h => absurd h List.not_mem_nil⟩⟩
  transactions id := ⟨[], (List.append_nil _).symm, by simp⟩

/-- One item and then the others. -/
theorem Processed.cons {db₁ : BulkDb} {id : ItemId} {ids : List ItemId}
    (hone : Processed p [id] db db₁) (hrest : Processed p ids db₁ db') (hnew : id ∉ ids) :
    Processed p (id :: ids) db db' where
  payments := hrest.payments.trans hone.payments
  items := by
    obtain ⟨f, hf, hout⟩ := hone.items
    obtain ⟨g, hg, hout'⟩ := hrest.items
    refine ⟨g ∘ f, by rw [hg, hf, List.map_map], fun r => ?_⟩
    have hr := hout r
    have hr' := hout' (f r)
    refine ⟨hr'.id.trans hr.id, hr'.bulkPaymentId.trans hr.bulkPaymentId,
      hr'.amount.trans hr.amount, fun hnot => ?_, fun hmem hpays => ?_, fun hmem hpays => ?_⟩
    · rw [List.mem_cons, not_or] at hnot
      have hsame := hr.kept (by simpa using hnot.1)
      show g (f r) = r
      rw [hr'.kept (by rw [hsame]; exact hnot.2), hsame]
    · rcases List.mem_cons.mp hmem with rfl | hmem
      · -- the others leave this item alone
        obtain ⟨hstatus, tx, htx, hid⟩ := hr.paid (List.mem_singleton_self _) hpays
        have hsame : g (f r) = f r := hr'.kept (by rw [hr.id]; exact hnew)
        obtain ⟨txs, htxs, -⟩ := hrest.transactions r.id
        show (g (f r)).status = _ ∧ ∃ tx ∈ _, (g (f r)).transactionId = _
        rw [hsame, htxs]
        exact ⟨hstatus, tx, List.mem_append_left _ htx, hid⟩
      · have hne : r.id ≠ id := fun heq => hnew (heq ▸ hmem)
        have hsame := hr.kept (by simpa using hne)
        rw [hsame] at hr'
        show (g (f r)).status = _ ∧ ∃ tx ∈ _, (g (f r)).transactionId = _
        rw [hsame]
        exact hr'.paid hmem hpays
    · rcases List.mem_cons.mp hmem with rfl | hmem
      · have hsame : g (f r) = f r := hr'.kept (by rw [hr.id]; exact hnew)
        show (g (f r)).status = _ ∧ (g (f r)).transactionId = _
        rw [hsame]
        exact hr.failed (List.mem_singleton_self _) hpays
      · have hne : r.id ≠ id := fun heq => hnew (heq ▸ hmem)
        have hsame := hr.kept (by simpa using hne)
        rw [hsame] at hr'
        show (g (f r)).status = _ ∧ (g (f r)).transactionId = _
        rw [hsame]
        exact hr'.failed hmem hpays
  transactions k := by
    obtain ⟨txs, htxs, hlength⟩ := hone.transactions k
    obtain ⟨txs', htxs', hlength'⟩ := hrest.transactions k
    refine ⟨txs ++ txs', by rw [htxs', htxs, List.append_assoc], ?_⟩
    rw [List.length_append, hlength, hlength']
    by_cases hk : k = id
    · subst hk
      simp [hnew]
    · simp [hk]

/-- Writing one row by its id. -/
theorem updateItem_outcome (patch : ItemPatch) (id : ItemId) (r : BulkPaymentItemEntity) :
    (if r.id = id then patch.apply r else r).id = r.id ∧
      (if r.id = id then patch.apply r else r).bulkPaymentId = r.bulkPaymentId ∧
      (if r.id = id then patch.apply r else r).amount = r.amount := by
  split
  · cases patch <;> exact ⟨rfl, rfl, rfl⟩
  · exact ⟨rfl, rfl, rfl⟩

theorem transactionsFor_concat (db : BulkDb) (tx : TransactionEntity) (id : ItemId) :
    ({ db with transactions := db.transactions ++ [tx] } : BulkDb).transactionsFor id =
      db.transactionsFor id ++ if tx.id.item = id then [tx] else [] := by
  unfold BulkDb.transactionsFor
  rw [List.filter_append]
  congr 1
  split
  · rename_i hid
    exact List.filter_cons_of_pos (by simpa using hid)
  · rename_i hid
    exact List.filter_cons_of_neg (by simpa using hid)

/-- The item is paid. -/
theorem Processed.paid {tx : TransactionEntity} (hitem : tx.id.item = item.id)
    (hpays : p.Pays item.id) :
    Processed p [item.id] db
      (({ db with transactions := db.transactions ++ [tx] } : BulkDb).updateItem item.id
        (.success tx.id)) where
  payments := rfl
  items := by
    refine ⟨_, rfl, fun r => ?_⟩
    obtain ⟨hid, hbulk, hamount⟩ := updateItem_outcome (.success tx.id) item.id r
    refine ⟨hid, hbulk, hamount, fun hnot => if_neg (by simpa using hnot), fun hmem _ => ?_,
      fun hmem hnot => ?_⟩
    · have hr := List.mem_singleton.mp hmem
      rw [if_pos hr]
      refine ⟨rfl, tx, ?_, rfl⟩
      show tx ∈ ({ db with transactions := db.transactions ++ [tx] } : BulkDb).transactionsFor r.id
      rw [transactionsFor_concat, if_pos (hitem.trans hr.symm)]
      exact List.mem_append_right _ (List.mem_singleton_self _)
    · rw [List.mem_singleton.mp hmem] at hnot
      exact absurd hpays hnot
  transactions id := by
    refine ⟨_, transactionsFor_concat db tx id, ?_⟩
    rw [hitem]
    by_cases hid : item.id = id
    · subst hid
      simp [hpays.1]
    · simp [hid, Ne.symm hid]

/-- The item is written as failed, with or without a transaction for it. -/
theorem Processed.failed {txs : List TransactionEntity} (error : String)
    (hpays : ¬ p.Pays item.id)
    (htxs : ∀ id, (txs.filter fun tx => tx.id.item = id).length =
      if id = item.id ∧ p.save id = none then 1 else 0) :
    Processed p [item.id] db
      (({ db with transactions := db.transactions ++ txs } : BulkDb).updateItem item.id
        (.failed error)) where
  payments := rfl
  items := by
    refine ⟨_, rfl, fun r => ?_⟩
    obtain ⟨hid, hbulk, hamount⟩ := updateItem_outcome (.failed error) item.id r
    refine ⟨hid, hbulk, hamount, fun hnot => if_neg (by simpa using hnot), fun hmem hdone => ?_,
      fun hmem _ => ?_⟩
    · rw [List.mem_singleton.mp hmem] at hdone
      exact absurd hdone hpays
    · rw [if_pos (List.mem_singleton.mp hmem)]
      exact ⟨rfl, rfl⟩
  transactions id := by
    refine ⟨_, List.filter_append _ _, ?_⟩
    rw [htxs id]
    simp

/-- The `try` block of an item that is paid. -/
theorem processItem_pays (bulkPayment : BulkPaymentEntity) (db : BulkDb) (hpays : p.Pays item.id) :
    ∃ tx : TransactionEntity, tx.id.item = item.id ∧
      (processItem bulkPayment item).run exec p.inject db = (.ok (),
        ({ db with transactions := db.transactions ++ [tx] } : BulkDb).updateItem item.id
          (.success tx.id)) := by
  refine ⟨db.newTransaction item.id item.amount bulkPayment.currency item.recipientAddress
    ("Bulk payment " ++ toString bulkPayment.id ++ " - item " ++ toString item.id), rfl, ?_⟩
  unfold processItem
  simp only [bind_eq, await]
  rw [run_call_bind_ok ((p.inject_saveTransaction ..).trans hpays.1) rfl, run_call,
    p.inject_success, hpays.2]
  rfl

/-- The `try` block of an item that is not: the transaction stays when it is
the second write that fails. -/
theorem processItem_fails (bulkPayment : BulkPaymentEntity) (db : BulkDb)
    (hpays : ¬ p.Pays item.id) :
    ∃ (e : Thrown) (txs : List TransactionEntity),
      (processItem bulkPayment item).run exec p.inject db =
        (.error e, { db with transactions := db.transactions ++ txs }) ∧
      ∀ id, (txs.filter fun tx => tx.id.item = id).length =
        if id = item.id ∧ p.save id = none then 1 else 0 := by
  unfold processItem
  simp only [bind_eq, await]
  cases hsave : p.save item.id with
  | some e =>
    refine ⟨e, [], ?_, fun id => ?_⟩
    · rw [List.append_nil]
      exact run_call_bind_fault ((p.inject_saveTransaction ..).trans hsave)
    · have hnot : ¬ (id = item.id ∧ p.save id = none) := by
        rintro ⟨rfl, hnone⟩
        rw [hsave] at hnone
        cases hnone
      rw [if_neg hnot]
      rfl
  | none =>
    rw [run_call_bind_ok ((p.inject_saveTransaction ..).trans hsave) rfl, run_call,
      p.inject_success]
    cases hsucceed : p.succeed item.id with
    | none => exact absurd ⟨hsave, hsucceed⟩ hpays
    | some e =>
      refine ⟨e, [_], rfl, fun id => ?_⟩
      by_cases hid : id = item.id
      · subst hid
        simp [BulkDb.newTransaction, hsave]
      · simp [BulkDb.newTransaction, hid, Ne.symm hid]

/-- One turn of the loop. -/
theorem processItems_cons (bulkPayment : BulkPaymentEntity) (db : BulkDb)
    (items : List BulkPaymentItemEntity) (s f : ℕ) (hsettles : p.Settles item.id) :
    ∃ db', Processed p [item.id] db db' ∧
      (processItems bulkPayment (item :: items) s f).run exec p.inject db =
        (processItems bulkPayment items (s + if p.Pays item.id then 1 else 0)
          (f + if p.Pays item.id then 0 else 1)).run exec p.inject db' := by
  rw [processItems, bind_eq, run_attempt_bind]
  by_cases hpays : p.Pays item.id
  · obtain ⟨tx, hitem, hrun⟩ := processItem_pays bulkPayment db hpays
    refine ⟨_, Processed.paid hitem hpays, ?_⟩
    rw [hrun, if_pos hpays, if_pos hpays]
    rfl
  · obtain ⟨e, txs, hrun, htxs⟩ := processItem_fails bulkPayment db hpays
    refine ⟨_, Processed.failed e.text hpays htxs, ?_⟩
    rw [hrun, if_neg hpays, if_neg hpays]
    exact run_call_bind_ok ((p.inject_failed ..).trans (hsettles.resolve_left hpays)) rfl

/-- The loop is left when the update in the `catch` fails. -/
theorem processItems_stops (bulkPayment : BulkPaymentEntity) (db : BulkDb)
    (items : List BulkPaymentItemEntity) (s f : ℕ) (hsettles : ¬ p.Settles item.id) :
    ∃ e db', db'.payments = db.payments ∧
      (processItems bulkPayment (item :: items) s f).run exec p.inject db = (.error e, db') := by
  unfold BulkFaults.Settles at hsettles
  rw [not_or] at hsettles
  obtain ⟨hpays, hfail⟩ := hsettles
  obtain ⟨e', hfail⟩ := Option.ne_none_iff_exists'.mp hfail
  obtain ⟨e, txs, hrun, -⟩ := processItem_fails bulkPayment db hpays
  refine ⟨e', { db with transactions := db.transactions ++ txs }, rfl, ?_⟩
  rw [processItems, bind_eq, run_attempt_bind, hrun]
  exact run_call_bind_fault ((p.inject_failed ..).trans hfail)

/-- The loop, when every item settles. -/
theorem processItems_run (bulkPayment : BulkPaymentEntity) (items : List BulkPaymentItemEntity)
    (db : BulkDb) (s f : ℕ) (hnd : (items.map BulkPaymentItemEntity.id).Nodup)
    (hsettles : ∀ item ∈ items, p.Settles item.id) :
    ∃ db', Processed p (items.map BulkPaymentItemEntity.id) db db' ∧
      (processItems bulkPayment items s f).run exec p.inject db =
        (.ok (s + items.countP (fun item => p.Pays item.id),
          f + items.countP (fun item => ¬ p.Pays item.id)), db') := by
  induction items generalizing db s f with
  | nil => exact ⟨db, Processed.nil db, rfl⟩
  | cons item items ih =>
    rw [List.map_cons, List.nodup_cons] at hnd
    obtain ⟨db₁, hone, hrun⟩ :=
      processItems_cons bulkPayment db items s f (hsettles item (List.mem_cons_self ..))
    obtain ⟨db', hrest, hrun'⟩ := ih db₁ _ _ hnd.2
      fun item hitem => hsettles item (List.mem_cons_of_mem _ hitem)
    refine ⟨db', hone.cons hrest hnd.1, ?_⟩
    rw [hrun, hrun', List.countP_cons, List.countP_cons]
    by_cases hpays : p.Pays item.id <;> simp [hpays] <;> omega

/-- When some item does not settle, the loop does not end. -/
theorem processItems_aborts (bulkPayment : BulkPaymentEntity) (items : List BulkPaymentItemEntity)
    (db : BulkDb) (s f : ℕ) (hstuck : ∃ item ∈ items, ¬ p.Settles item.id) :
    ∃ e db', db'.payments = db.payments ∧
      (processItems bulkPayment items s f).run exec p.inject db = (.error e, db') := by
  induction items generalizing db s f with
  | nil =>
    obtain ⟨item, hitem, -⟩ := hstuck
    cases hitem
  | cons item items ih =>
    by_cases hsettles : p.Settles item.id
    · obtain ⟨db₁, hone, hrun⟩ := processItems_cons bulkPayment db items s f hsettles
      have hrest : ∃ item ∈ items, ¬ p.Settles item.id := by
        obtain ⟨item', hitem', hnot⟩ := hstuck
        rcases List.mem_cons.mp hitem' with rfl | hmem
        · exact absurd hsettles hnot
        · exact ⟨item', hmem, hnot⟩
      obtain ⟨e, db', hsame, hrun'⟩ := ih db₁ _ _ hrest
      exact ⟨e, db', hsame.trans hone.payments, hrun.trans hrun'⟩
    · exact processItems_stops bulkPayment db items s f hsettles

end Items

-- ---------------------------------------------------------------------------
-- The amounts
-- ---------------------------------------------------------------------------

/-- The stored amounts together, in units of the last decimal. -/
def storedUnits (amounts : List ℚ) : ℤ := (amounts.map fun x => roundHalfAway (x * 10 ^ 8)).sum

/-- What storing the amounts has taken from their sum, in the same units. -/
def roundingError (amounts : List ℚ) : ℚ := amounts.sum * 10 ^ 8 - storedUnits amounts

/-- The errors of the amounts come to less than half a unit, or to half a unit
that the sum is rounded by as well. -/
def RoundsTogether (amounts : List ℚ) : Prop :=
  |roundingError amounts| < 1 / 2 ∨
    (roundingError amounts = 1 / 2 ∧ storedUnits amounts < 0) ∨
    (roundingError amounts = -(1 / 2) ∧ 0 < storedUnits amounts)

instance (amounts : List ℚ) : Decidable (RoundsTogether amounts) :=
  inferInstanceAs (Decidable (_ ∨ _))

theorem sum_decimal8 (amounts : List ℚ) :
    (amounts.map decimal8).sum = (storedUnits amounts : ℚ) / 10 ^ 8 := by
  unfold storedUnits
  induction amounts with
  | nil => simp
  | cons x amounts ih =>
    rw [List.map_cons, List.sum_cons, ih, List.map_cons, List.sum_cons, decimal8, toFixed]
    push_cast
    ring

/-- The sum of the stored amounts is the stored sum. -/
theorem decimal8_sum_iff (amounts : List ℚ) :
    decimal8 amounts.sum = (amounts.map decimal8).sum ↔ RoundsTogether amounts := by
  rw [sum_decimal8, decimal8, toFixed, div_left_inj' (by norm_num), Int.cast_inj]
  exact roundHalfAway_eq_iff

-- ---------------------------------------------------------------------------
-- Created rows
-- ---------------------------------------------------------------------------

section Created

variable {db : BulkDb} {i : ℕ} {dto : CreateBulkPaymentDto}

/-- No row belongs to the payment yet. -/
structure Fresh (i : ℕ) (db : BulkDb) : Prop where
  payments : ∀ payment ∈ db.payments, payment.id ≠ i
  items : ∀ item ∈ db.items, item.bulkPaymentId ≠ i
  transactions : ∀ tx ∈ db.transactions, tx.id.item.1 ≠ i

/-- The payment as it is stored. -/
def storedPayment (i : ℕ) (userId : UserId) (dto : CreateBulkPaymentDto) : BulkPaymentEntity :=
  { createPayment i userId dto with
    totalAmount := decimal8 (dto.items.map BulkPaymentItemDto.amount).sum }

/-- Its items as they are stored. -/
def storedItems (i : ℕ) (dto : CreateBulkPaymentDto) : List BulkPaymentItemEntity :=
  (dto.items.mapIdx (createItem i)).map fun item => { item with amount := decimal8 item.amount }

/-- The ids of `n` items. -/
def itemIds (i n : ℕ) : List ItemId := (List.range n).map fun m => (i, m)

theorem create_run (db : BulkDb) (i : ℕ) (userId : UserId) (dto : CreateBulkPaymentDto) :
    ((create i userId dto).run exec noFault db).2 =
      { db with
        payments := db.payments ++ [storedPayment i userId dto]
        items := db.items ++ storedItems i dto } := rfl

theorem storedItems_ids (i : ℕ) (dto : CreateBulkPaymentDto) :
    (storedItems i dto).map BulkPaymentItemEntity.id = itemIds i dto.items.length := by
  apply List.ext_getElem
  · simp [storedItems, itemIds]
  · intro n hn hn'
    simp [storedItems, createItem, itemIds]

theorem storedItems_amounts (i : ℕ) (dto : CreateBulkPaymentDto) :
    (storedItems i dto).map BulkPaymentItemEntity.amount =
      (dto.items.map BulkPaymentItemDto.amount).map decimal8 := by
  apply List.ext_getElem
  · simp [storedItems]
  · intro n hn hn'
    simp [storedItems, createItem]

theorem storedItems_pending {item : BulkPaymentItemEntity} (hitem : item ∈ storedItems i dto) :
    item.bulkPaymentId = i ∧ item.transactionId = none ∧ ∃ n, item.id = (i, n) := by
  obtain ⟨created, hcreated, rfl⟩ := List.mem_map.mp hitem
  obtain ⟨n, hn, rfl⟩ := List.mem_mapIdx.mp hcreated
  exact ⟨rfl, rfl, n, rfl⟩

theorem storedItems_nodup (i : ℕ) (dto : CreateBulkPaymentDto) :
    ((storedItems i dto).map BulkPaymentItemEntity.id).Nodup := by
  rw [storedItems_ids]
  exact List.nodup_range.map fun n m h => (Prod.mk.inj h).2

theorem payment_create (userId : UserId) (dto : CreateBulkPaymentDto)
    (hfresh : Fresh i db) :
    ((create i userId dto).run exec noFault db).2.payment i =
      some (storedPayment i userId dto) := by
  rw [create_run]
  show (db.payments ++ _).find? _ = _
  rw [List.find?_append, List.find?_eq_none.mpr]
  · rw [Option.none_or]
    exact List.find?_cons_of_pos (by simp [storedPayment, createPayment])
  · intro payment hpayment hid
    exact hfresh.payments payment hpayment (of_decide_eq_true hid)

theorem itemsOf_create (userId : UserId) (dto : CreateBulkPaymentDto)
    (hfresh : Fresh i db) :
    ((create i userId dto).run exec noFault db).2.itemsOf i = storedItems i dto := by
  rw [create_run]
  show (db.items ++ _).filter _ = _
  rw [List.filter_append, List.filter_eq_nil_iff.mpr, List.nil_append, List.filter_eq_self]
  · intro item hitem
    exact decide_eq_true (storedItems_pending hitem).1
  · exact fun item hitem => by simpa using hfresh.items item hitem

theorem transactionsFor_create (userId : UserId) (dto : CreateBulkPaymentDto)
    (hfresh : Fresh i db) (n : ℕ) :
    ((create i userId dto).run exec noFault db).2.transactionsFor (i, n) = [] := by
  rw [create_run]
  show db.transactions.filter _ = _
  rw [List.filter_eq_nil_iff]
  intro tx htx hid
  exact hfresh.transactions tx htx (by rw [of_decide_eq_true hid])

end Created

-- ---------------------------------------------------------------------------
-- The whole call
-- ---------------------------------------------------------------------------

def BulkPaymentStatus.Ended (status : BulkPaymentStatus) : Prop :=
  status = .completed ∨ status = .failed ∨ status = .partly

instance (status : BulkPaymentStatus) : Decidable status.Ended :=
  inferInstanceAs (Decidable (_ ∨ _))

theorem finalStatus_ended (successCount failCount : ℕ) :
    (finalStatus successCount failCount).Ended := by
  unfold finalStatus
  split
  · exact .inl rfl
  · split
    · exact .inr (.inl rfl)
    · exact .inr (.inr rfl)

section Whole

variable {p : BulkFaults} {db db' : BulkDb} {i : ℕ} {payment : BulkPaymentEntity}
  {items : List BulkPaymentItemEntity}

theorem payment_updatePayment {f : BulkPaymentEntity → BulkPaymentEntity}
    (hf : ∀ payment, (f payment).id = payment.id) (db : BulkDb) (i : ℕ) :
    (db.updatePayment i f).payment i = (db.payment i).map f := by
  show ((db.payments.map fun payment => if payment.id = i then f payment else payment).find?
    fun payment => payment.id = i) = (db.payments.find? fun payment => payment.id = i).map f
  induction db.payments with
  | nil => rfl
  | cons payment payments ih =>
    rw [List.map_cons]
    by_cases hid : payment.id = i
    · rw [if_pos hid, List.find?_cons_of_pos (by simpa [hf] using hid),
        List.find?_cons_of_pos (by simpa using hid)]
      rfl
    · rw [if_neg hid, List.find?_cons_of_neg (by simpa using hid),
        List.find?_cons_of_neg (by simpa using hid), ih]

/-- The payment is PROCESSING. -/
def BulkDb.started (db : BulkDb) (i : ℕ) : BulkDb :=
  db.updatePayment i fun payment => { payment with status := .processing }

/-- What the last update makes of the payment. -/
def BulkPaymentEntity.finished (payment : BulkPaymentEntity) (successCount failCount : ℕ)
    (now : Time) : BulkPaymentEntity :=
  { payment with
    status := finalStatus successCount failCount, successCount := successCount,
    failCount := failCount, completedAt := some now }

def BulkDb.finished (db : BulkDb) (i successCount failCount : ℕ) : BulkDb :=
  db.updatePayment i fun payment => payment.finished successCount failCount db.now

theorem payment_started (hpayment : db.payment i = some payment) :
    (db.started i).payment i = some { payment with status := .processing } := by
  unfold BulkDb.started
  rw [payment_updatePayment (f := fun payment => { payment with status := .processing })
    (fun _ => rfl), hpayment]
  rfl

/-- Past the lookup and the first update. -/
theorem processBulkPayment_run (hpayment : db.payment i = some payment) (hfind : p.find = none)
    (hstart : p.start = none) (hload : p.load = none) :
    (processBulkPayment i).run exec p.inject db =
      ((processItems payment (db.itemsOf i) 0 0).bind fun counts =>
        await (.finish i (finalStatus counts.1 counts.2) counts.1 counts.2)).run exec p.inject
          (db.started i) := by
  have hfound : exec (.findPayment i) db = .ok (some payment, db) := by
    rw [exec, hpayment]
  unfold processBulkPayment
  simp only [bind_eq, await]
  rw [run_call_bind_ok (show p.inject (.findPayment i) = none from hfind) hfound]
  show ((call (.start i)).bind _).run exec p.inject db = _
  rw [run_call_bind_ok (show p.inject (.start i) = none from hstart) rfl,
    run_call_bind_ok (show p.inject (.findItems i) = none from hload) rfl]
  rfl

/-- What the call leaves when it completes. -/
theorem processBulkPayment_completes (hpayment : db.payment i = some payment)
    (hnd : ((db.itemsOf i).map BulkPaymentItemEntity.id).Nodup)
    (hcompletes : p.Completes ((db.itemsOf i).map BulkPaymentItemEntity.id)) :
    ∃ db', Processed p ((db.itemsOf i).map BulkPaymentItemEntity.id) (db.started i) db' ∧
      ((processBulkPayment i).run exec p.inject db).2 =
        db'.finished i ((db.itemsOf i).countP fun item => p.Pays item.id)
          ((db.itemsOf i).countP fun item => ¬ p.Pays item.id) := by
  obtain ⟨db', hprocessed, hrun⟩ := processItems_run payment (db.itemsOf i) (db.started i) 0 0 hnd
    (List.forall_mem_map.mp hcompletes.items)
  refine ⟨db', hprocessed, ?_⟩
  rw [processBulkPayment_run hpayment hcompletes.find hcompletes.start hcompletes.load,
    run_bind_ok hrun, run_call, Nat.zero_add, Nat.zero_add,
    show p.inject (.finish ..) = none from hcompletes.finish]
  rfl

/-- A call that does not complete leaves the status as it was, or PROCESSING. -/
theorem processBulkPayment_aborts (hpayment : db.payment i = some payment)
    (hnd : ((db.itemsOf i).map BulkPaymentItemEntity.id).Nodup)
    (hnot : ¬ p.Completes ((db.itemsOf i).map BulkPaymentItemEntity.id)) :
    ∃ payment', ((processBulkPayment i).run exec p.inject db).2.payment i = some payment' ∧
      (payment'.status = payment.status ∨ payment'.status = .processing) := by
  have hfound : exec (.findPayment i) db = .ok (some payment, db) := by
    rw [exec, hpayment]
  have hstarted := payment_started hpayment
  cases hfind : p.find with
  | some e =>
    refine ⟨payment, ?_, .inl rfl⟩
    unfold processBulkPayment
    rw [bind_eq, await, run_call_bind_fault (show p.inject (.findPayment i) = some e from hfind)]
    exact hpayment
  | none =>
    cases hstart : p.start with
    | some e =>
      refine ⟨payment, ?_, .inl rfl⟩
      unfold processBulkPayment
      simp only [bind_eq, await]
      rw [run_call_bind_ok (show p.inject (.findPayment i) = none from hfind) hfound]
      show (((call (.start i)).bind _).run exec p.inject db).2.payment i = _
      rw [run_call_bind_fault (show p.inject (.start i) = some e from hstart)]
      exact hpayment
    | none =>
      cases hload : p.load with
      | some e =>
        refine ⟨{ payment with status := .processing }, ?_, .inr rfl⟩
        unfold processBulkPayment
        simp only [bind_eq, await]
        rw [run_call_bind_ok (show p.inject (.findPayment i) = none from hfind) hfound]
        show (((call (.start i)).bind _).run exec p.inject db).2.payment i = _
        rw [run_call_bind_ok (show p.inject (.start i) = none from hstart) rfl,
          run_call_bind_fault (show p.inject (.findItems i) = some e from hload)]
        exact hstarted
      | none =>
        rw [processBulkPayment_run hpayment hfind hstart hload]
        by_cases hitems : ∀ item ∈ db.itemsOf i, p.Settles item.id
        · obtain ⟨db', hprocessed, hrun⟩ :=
            processItems_run payment (db.itemsOf i) (db.started i) 0 0 hnd hitems
          cases hfinish : p.finish with
          | none =>
            exact absurd ⟨hfind, hstart, hload, List.forall_mem_map.mpr hitems, hfinish⟩ hnot
          | some e =>
            rw [run_bind_ok hrun, run_call, show p.inject (.finish ..) = some e from hfinish]
            refine ⟨{ payment with status := .processing }, ?_, .inr rfl⟩
            show db'.payments.find? _ = _
            rw [hprocessed.payments]
            exact hstarted
        · push Not at hitems
          obtain ⟨e, db', hsame, hrun⟩ :=
            processItems_aborts payment (db.itemsOf i) (db.started i) 0 0 hitems
          rw [run_bind_error hrun]
          refine ⟨{ payment with status := .processing }, ?_, .inr rfl⟩
          show db'.payments.find? _ = _
          rw [hsame]
          exact hstarted

end Whole

-- ---------------------------------------------------------------------------
-- Agreement
-- ---------------------------------------------------------------------------

/-- The stored payment tells what is stored of its items. -/
structure Agrees (db : BulkDb) (payment : BulkPaymentEntity) : Prop where
  ended : payment.status.Ended
  counts : payment.successCount + payment.failCount = payment.totalCount
  successes : payment.successCount =
    (db.itemsOf payment.id).countP fun item => item.status = .success
  paid : ∀ item ∈ db.itemsOf payment.id, item.status = .success ↔
    ∃ tx, db.transactionsFor item.id = [tx] ∧ item.transactionId = some tx.id
  total : payment.totalAmount =
    ((db.itemsOf payment.id).map BulkPaymentItemEntity.amount).sum

/-- `Agrees` for the stored payment with this id. -/
def AgreesWithItems (db : BulkDb) (i : ℕ) : Prop :=
  ∃ payment, db.payment i = some payment ∧ Agrees db payment

section Agreement

variable {p : BulkFaults} {db db' : BulkDb} {i : ℕ} {r r' : BulkPaymentItemEntity}
  {ids : List ItemId}

/-- The items of the payment, one by one. -/
theorem Processed.itemsOf (h : Processed p ids db db') (i : ℕ) :
    ∃ f, db'.itemsOf i = (db.itemsOf i).map f ∧ ∀ r, Outcome p ids db' r (f r) := by
  obtain ⟨f, hitems, hout⟩ := h.items
  refine ⟨f, ?_, hout⟩
  unfold BulkDb.itemsOf
  rw [hitems, List.filter_map]
  congr 1
  exact List.filter_congr fun r _ => by
    rw [Function.comp_apply, (hout r).bulkPaymentId]

theorem Outcome.success_iff (h : Outcome p ids db' r r') (hmem : r.id ∈ ids) :
    r'.status = .success ↔ p.Pays r.id := by
  by_cases hpays : p.Pays r.id
  · exact iff_of_true (h.paid hmem hpays).1 hpays
  · refine iff_of_false (fun hsuccess => ?_) hpays
    rw [(h.failed hmem hpays).1] at hsuccess
    cases hsuccess

/-- An item is stored with the one transaction that is created for it, or with
none. -/
theorem Outcome.paid_iff (h : Outcome p ids db' r r') (hprocessed : Processed p ids db db')
    (hmem : r.id ∈ ids) (hnone : r.transactionId = none) (hnew : db.transactionsFor r.id = []) :
    r'.status = .success ↔
      ∃ tx, db'.transactionsFor r'.id = [tx] ∧ r'.transactionId = some tx.id := by
  rw [h.success_iff hmem, h.id]
  constructor
  · intro hpays
    obtain ⟨-, tx, htx, hid⟩ := h.paid hmem hpays
    obtain ⟨txs, htxs, hlength⟩ := hprocessed.transactions r.id
    rw [if_pos ⟨hmem, hpays.1⟩] at hlength
    rw [hnew, List.nil_append] at htxs
    obtain ⟨tx', rfl⟩ := List.length_eq_one_iff.mp hlength
    rw [htxs] at htx
    obtain rfl := List.mem_singleton.mp htx
    exact ⟨tx, htxs, hid⟩
  · rintro ⟨tx, -, hid⟩
    by_contra hpays
    rw [(h.failed hmem hpays).2, hnone] at hid
    cases hid

/-- The counts and the rows agree; the total is what it was. -/
theorem Processed.agrees_iff {payment : BulkPaymentEntity} (h : Processed p ids db db')
    (hmem : ∀ r ∈ db.itemsOf payment.id, r.id ∈ ids)
    (hnone : ∀ r ∈ db.itemsOf payment.id, r.transactionId = none)
    (hnew : ∀ r ∈ db.itemsOf payment.id, db.transactionsFor r.id = [])
    (hended : payment.status.Ended)
    (hsuccess : payment.successCount =
      (db.itemsOf payment.id).countP fun item => p.Pays item.id)
    (hfail : payment.failCount = (db.itemsOf payment.id).countP fun item => ¬ p.Pays item.id)
    (hcount : payment.totalCount = (db.itemsOf payment.id).length) :
    Agrees db' payment ↔
      payment.totalAmount = ((db.itemsOf payment.id).map BulkPaymentItemEntity.amount).sum := by
  obtain ⟨f, hitems, hout⟩ := h.itemsOf payment.id
  have hamounts : (db'.itemsOf payment.id).map BulkPaymentItemEntity.amount =
      (db.itemsOf payment.id).map BulkPaymentItemEntity.amount := by
    rw [hitems, List.map_map]
    exact List.map_congr_left fun r _ => (hout r).amount
  constructor
  · intro hagrees
    rw [hagrees.total, hamounts]
  · intro htotal
    refine ⟨hended, ?_, ?_, ?_, by rw [hamounts, htotal]⟩
    · rw [hsuccess, hfail, hcount]
      have hall := List.length_eq_countP_add_countP (l := db.itemsOf payment.id)
        fun item => decide (p.Pays item.id)
      simp only [decide_eq_true_eq] at hall
      rw [hall]
    · rw [hsuccess, hitems, List.countP_map]
      refine List.countP_congr fun r hr => ?_
      rw [Function.comp_apply, decide_eq_true_iff, decide_eq_true_iff]
      exact ((hout r).success_iff (hmem r hr)).symm
    · intro item hitem
      rw [hitems] at hitem
      obtain ⟨r, hr, rfl⟩ := List.mem_map.mp hitem
      exact (hout r).paid_iff h (hmem r hr) (hnone r hr) (hnew r hr)

theorem agrees_finished {payment : BulkPaymentEntity} {i s f : ℕ} :
    Agrees (db.finished i s f) payment ↔ Agrees db payment :=
  ⟨fun h => ⟨h.ended, h.counts, h.successes, h.paid, h.total⟩,
    fun h => ⟨h.ended, h.counts, h.successes, h.paid, h.total⟩⟩

end Agreement

/-- What is left when `processBulkPayment` has ended with these failures, for a
payment that `create` has stored. -/
def afterwards (p : BulkFaults) (i : ℕ) (userId : UserId) (dto : CreateBulkPaymentDto)
    (db : BulkDb) : BulkDb :=
  ((processBulkPayment i).run exec p.inject ((create i userId dto).run exec noFault db).2).2

/-- When the call completes, only the total can be off. -/
theorem agrees_of_completes {p : BulkFaults} {db : BulkDb} {i : ℕ} (userId : UserId)
    {dto : CreateBulkPaymentDto} (hfresh : Fresh i db)
    (hcompletes : p.Completes (itemIds i dto.items.length)) :
    AgreesWithItems (afterwards p i userId dto db) i ↔
      RoundsTogether (dto.items.map BulkPaymentItemDto.amount) := by
  have hpayment := payment_create userId dto hfresh
  have hitems := itemsOf_create userId dto hfresh
  have hids := storedItems_ids i dto
  rw [← hids, ← hitems] at hcompletes
  obtain ⟨db', hprocessed, hrun⟩ := processBulkPayment_completes hpayment
    (hitems ▸ storedItems_nodup i dto) hcompletes
  rw [hitems] at hprocessed hrun
  have hstored : (((create i userId dto).run exec noFault db).2.started i).itemsOf i =
      storedItems i dto := hitems
  have hfinished : ∀ s f, (db'.finished i s f).payment i =
      some ((storedPayment i userId dto).finished s f db'.now) := by
    intro s f
    have hget : db'.payment i = some { storedPayment i userId dto with status := .processing } := by
      show db'.payments.find? _ = _
      rw [hprocessed.payments]
      exact payment_started hpayment
    unfold BulkDb.finished
    rw [payment_updatePayment (f := fun payment => payment.finished s f db'.now) (fun _ => rfl),
      hget]
    rfl
  have hiff : ∀ payment : BulkPaymentEntity, payment = (storedPayment i userId dto).finished
      ((storedItems i dto).countP fun item => p.Pays item.id)
      ((storedItems i dto).countP fun item => ¬ p.Pays item.id) db'.now →
      (Agrees db' payment ↔ RoundsTogether (dto.items.map BulkPaymentItemDto.amount)) := by
    rintro payment rfl
    rw [hprocessed.agrees_iff]
    · show (storedPayment i userId dto).totalAmount =
        (((((create i userId dto).run exec noFault db).2.started i).itemsOf i).map
          BulkPaymentItemEntity.amount).sum ↔ _
      rw [hstored, storedItems_amounts]
      exact decimal8_sum_iff _
    · exact fun r hr => List.mem_map_of_mem (hstored ▸ hr)
    · exact fun r hr => (storedItems_pending (hstored ▸ hr)).2.1
    · intro r hr
      obtain ⟨-, -, n, hn⟩ := storedItems_pending (hstored ▸ hr)
      rw [hn]
      exact transactionsFor_create userId dto hfresh n
    · exact finalStatus_ended _ _
    · exact hstored ▸ rfl
    · exact hstored ▸ rfl
    · show dto.items.length =
        ((((create i userId dto).run exec noFault db).2.started i).itemsOf i).length
      rw [hstored]
      simp [storedItems]
  unfold afterwards
  rw [hrun]
  constructor
  · rintro ⟨payment, hget, hagrees⟩
    rw [hfinished] at hget
    exact (hiff payment (Option.some.inj hget).symm).mp (agrees_finished.mp hagrees)
  · intro hrounds
    exact ⟨_, hfinished _ _, agrees_finished.mpr ((hiff _ rfl).mpr hrounds)⟩

/-- Which steps fail, over the writes of one item. -/
def faultsOn (save succeed fail : ItemId → Option Thrown) : BulkFaults where
  find := none
  start := none
  load := none
  save := save
  succeed := succeed
  fail := fail
  finish := none

end BulkPayments

end NexaFx
