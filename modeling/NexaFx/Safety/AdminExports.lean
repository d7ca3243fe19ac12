import NexaFx.Model.CsvExports

/-!
# The admin export against ties

Every page of the export is a query of its own, ordered by `createdAt` alone.
The loop always ends, its rows come in the order of their times and the count
is theirs (`exportLoop_spec`). Which rows they are depends on ties: the export
is complete for every order the database may choose if and only if no two
matching rows of one time lie on both sides of a page boundary
(`export_complete_iff`).
-/

namespace NexaFx

namespace AdminExports

variable {orderBy : ℕ → Paging.OrderBy Transaction.createdAt} {rows : List Transaction}

/-- What query number `k` returns. -/
def batch (orderBy : ℕ → Paging.OrderBy Transaction.createdAt) (rows : List Transaction) (k : ℕ) :
    List Transaction :=
  (((orderBy k).sort rows).drop (BATCH_SIZE * k)).take BATCH_SIZE

theorem length_batch (k : ℕ) :
    (batch orderBy rows k).length = min BATCH_SIZE (rows.length - BATCH_SIZE * k) := by
  rw [batch, List.length_take, List.length_drop, ((orderBy k).isOrder rows).perm.length_eq]

/-- What the first `k` queries return. -/
def batches (orderBy : ℕ → Paging.OrderBy Transaction.createdAt) (rows : List Transaction)
    (k : ℕ) : List Transaction :=
  (List.range k).flatMap (batch orderBy rows)

theorem batches_succ (k : ℕ) :
    batches orderBy rows (k + 1) = batches orderBy rows k ++ batch orderBy rows k := by
  rw [batches, List.range_succ, List.flatMap_append, List.flatMap_singleton]
  rfl

/-- One more query in the loop. -/
theorem exportLoop_succ (fuel k : ℕ) :
    exportLoop orderBy rows (fuel + 1) k (BATCH_SIZE * k)
        ⟨batches orderBy rows k, (batches orderBy rows k).length⟩ =
      if rows.length < BATCH_SIZE * (k + 1) then
        some ⟨batches orderBy rows (k + 1), (batches orderBy rows (k + 1)).length⟩
      else exportLoop orderBy rows fuel (k + 1) (BATCH_SIZE * (k + 1))
        ⟨batches orderBy rows (k + 1), (batches orderBy rows (k + 1)).length⟩ := by
  have hlength : (batch orderBy rows k).length = _ := length_batch k
  have hpos : 0 < BATCH_SIZE := by decide
  rw [exportLoop, ← batch, batches_succ, List.length_append, Nat.mul_succ]
  generalize batch orderBy rows k = page at *
  split
  · rename_i hzero
    rw [List.length_eq_zero_iff.mp hzero, List.append_nil, if_pos (by omega)]
    rfl
  · rename_i hzero
    split
    · rw [if_pos (by omega)]
    · rw [if_neg (by omega)]

theorem exportLoop_from {fuel k : ℕ} (hk : k ≤ rows.length / BATCH_SIZE)
    (hfuel : rows.length / BATCH_SIZE < k + fuel) :
    exportLoop orderBy rows fuel k (BATCH_SIZE * k)
        ⟨batches orderBy rows k, (batches orderBy rows k).length⟩ =
      some ⟨batches orderBy rows (rows.length / BATCH_SIZE + 1),
        (batches orderBy rows (rows.length / BATCH_SIZE + 1)).length⟩ := by
  induction fuel generalizing k with
  | zero => omega
  | succ fuel ih =>
    rw [exportLoop_succ]
    split
    · rename_i hlast
      have hlast' : rows.length / BATCH_SIZE < k + 1 :=
        (Nat.div_lt_iff_lt_mul (by decide)).mpr (by rwa [Nat.mul_comm])
      rw [show rows.length / BATCH_SIZE = k by omega]
    · rename_i hmore
      have hmore' : k + 1 ≤ rows.length / BATCH_SIZE :=
        (Nat.le_div_iff_mul_le (by decide)).mpr (by rw [Nat.mul_comm]; omega)
      exact ih hmore' (by omega)

/-- **The loop ends**, with the rows of all queries written. -/
theorem exportLoop_spec {fuel : ℕ} (hfuel : rows.length / BATCH_SIZE < fuel) :
    exportLoop orderBy rows fuel 0 0 ⟨[], 0⟩ =
      some ⟨batches orderBy rows (rows.length / BATCH_SIZE + 1),
        (batches orderBy rows (rows.length / BATCH_SIZE + 1)).length⟩ :=
  exportLoop_from (k := 0) (Nat.zero_le _) (by omega)

/-! ## What the queries return -/

/-- The times of what is written are those of any order of the rows. -/
theorem createdAt_batches (k : ℕ) {l : List Transaction}
    (hl : Paging.IsOrder Transaction.createdAt rows l) :
    (batches orderBy rows k).map Transaction.createdAt =
      (l.map Transaction.createdAt).take (BATCH_SIZE * k) := by
  induction k with
  | zero => rfl
  | succ k ih =>
    rw [batches_succ, List.map_append, ih, batch, List.map_take, List.map_drop,
      (((orderBy k).isOrder rows).map_key hl), Nat.mul_succ, List.take_add]

/-- **Rows come in the order of their times.** -/
theorem batches_sorted (k : ℕ) :
    (batches orderBy rows k).Pairwise fun a b => a.createdAt ≤ b.createdAt := by
  have hl := (orderBy 0).isOrder rows
  rw [← List.pairwise_map, createdAt_batches k hl]
  exact (List.pairwise_map.mpr hl.sorted).take

/-- No two rows of one time lie on both sides of a page boundary. -/
def NoTieAtBoundary (rows : List Transaction) : Prop :=
  ∀ k, Paging.NoTieAt Transaction.createdAt rows (BATCH_SIZE * (k + 1))

/-- Without ties at the boundaries the first queries return the first rows. -/
theorem batches_perm (htie : NoTieAtBoundary rows) {l : List Transaction}
    (hl : Paging.IsOrder Transaction.createdAt rows l) (k : ℕ) :
    (batches orderBy rows k).Perm (l.take (BATCH_SIZE * k)) := by
  induction k generalizing l with
  | zero => exact List.Perm.refl _
  | succ k ih =>
    have hk := (orderBy k).isOrder rows
    rw [batches_succ]
    refine ((ih hk).append_right _).trans ?_
    rw [batch, ← List.take_add, ← Nat.mul_succ]
    exact Paging.take_perm hk hl (htie k)

theorem take_boundary {l : List Transaction}
    (hl : Paging.IsOrder Transaction.createdAt rows l) :
    l.take (BATCH_SIZE * (rows.length / BATCH_SIZE + 1)) = l := by
  have hlt := Nat.lt_mul_div_succ rows.length (show 0 < BATCH_SIZE by decide)
  exact List.take_of_length_le (by rw [hl.perm.length_eq]; omega)

/-- A row that an order loses at a boundary is returned by no query. -/
theorem exists_incomplete (hnodup : rows.Nodup) (htie : ¬ NoTieAtBoundary rows) :
    ∃ orderBy : ℕ → Paging.OrderBy Transaction.createdAt, ∃ y ∈ rows,
      ∀ k, y ∉ batches orderBy rows k := by
  obtain ⟨k, hk⟩ := not_forall.mp htie
  obtain ⟨l', hl', y, hy, hbefore, hbehind⟩ :=
    Paging.exists_lost ((Paging.OrderBy.stable Transaction.createdAt).isOrder rows) hnodup hk
  refine ⟨fun j => if j ≤ k then Paging.OrderBy.stable Transaction.createdAt
    else Paging.OrderBy.choose hl', y, hy, fun n hmem => ?_⟩
  obtain ⟨j, -, hj⟩ := List.mem_flatMap.mp hmem
  rw [batch] at hj
  split at hj
  · rename_i hjk
    have hle : BATCH_SIZE * j + BATCH_SIZE ≤ BATCH_SIZE * (k + 1) := by
      rw [← Nat.mul_succ]
      exact Nat.mul_le_mul_left _ (by omega)
    refine hbefore (List.take_subset_take_left _ hle ?_)
    rw [List.take_add]
    exact List.mem_append_right _ hj
  · rename_i hjk
    rw [Paging.OrderBy.choose_sort] at hj
    have hle : BATCH_SIZE * (k + 1) ≤ BATCH_SIZE * j := Nat.mul_le_mul_left _ (by omega)
    exact hbehind (List.drop_subset_drop_left _ hle (List.mem_of_mem_take hj))

/-! ## The export -/

/-- The job ends and its file has every matching transaction once, in the
order of their times, with their number for the row count. -/
def ExportComplete (orderBy : ℕ → Paging.OrderBy Transaction.createdAt) (table : TransactionTable)
    (job : ExportTransactionsJobData) : Prop :=
  ∃ written, (∃ enough, ∀ fuel, enough ≤ fuel →
      exportLoop orderBy (matching table job) fuel 0 0 ⟨[], 0⟩ = some written) ∧
    written.out.Perm (matching table job) ∧
    (written.out.Pairwise fun a b => a.createdAt ≤ b.createdAt) ∧
    written.count = written.out.length

theorem matching_nodup (table : TransactionTable) (job : ExportTransactionsJobData) :
    (matching table job).Nodup :=
  (List.Nodup.of_map _ table.ids).filter _

/-- **The admin export is complete, in whatever order rows of one time come,
exactly where no tie lies on a page boundary.** Without that condition it still
ends, in the order of times, with a count that is right. -/
theorem export_complete_iff (table : TransactionTable) (job : ExportTransactionsJobData) :
    ((∀ orderBy, ExportComplete orderBy table job) ↔ NoTieAtBoundary (matching table job)) ∧
    ∀ orderBy, ∃ written, (∃ enough, ∀ fuel, enough ≤ fuel →
        exportLoop orderBy (matching table job) fuel 0 0 ⟨[], 0⟩ = some written) ∧
      (written.out.Pairwise fun a b => a.createdAt ≤ b.createdAt) ∧
      written.count = written.out.length := by
  generalize hrows : matching table job = rows
  have hends (orderBy : ℕ → Paging.OrderBy Transaction.createdAt) (fuel : ℕ)
      (h : rows.length / BATCH_SIZE + 1 ≤ fuel) :
      exportLoop orderBy rows fuel 0 0 ⟨[], 0⟩ = some _ := exportLoop_spec (by omega)
  refine ⟨⟨fun hcomplete => by_contra fun htie => ?_, fun htie orderBy => ?_⟩, fun orderBy =>
    ⟨_, ⟨_, hends orderBy⟩, batches_sorted _, rfl⟩⟩
  · obtain ⟨orderBy, y, hy, hnone⟩ := exists_incomplete (hrows ▸ matching_nodup table job) htie
    obtain ⟨written, ⟨enough, hwritten⟩, hperm, -⟩ := hcomplete orderBy
    have heq := (hwritten _ (le_max_left enough (rows.length / BATCH_SIZE + 1)))
    rw [hrows, hends orderBy _ (le_max_right enough _)] at heq
    rw [hrows, ← Option.some.inj heq] at hperm
    exact hnone _ (hperm.mem_iff.mpr hy)
  · have hl := (orderBy 0).isOrder rows
    have hperm : (batches orderBy rows (rows.length / BATCH_SIZE + 1)).Perm _ :=
      batches_perm htie hl _
    rw [take_boundary hl] at hperm
    exact ⟨_, ⟨_, hrows ▸ hends orderBy⟩, hrows ▸ hperm.trans hl.perm, batches_sorted _, rfl⟩

/-- A transaction made at time 0. -/
def sameTime (id : ℕ) : Transaction where
  id := id
  senderId := 0
  receiverId := 1
  amount := 100
  currency := "USD"
  fee := 0
  status := .completed
  reference := toString id
  receiptNumber := none
  metadata := .transfer
  createdAt := 0
  completedAt := none
  reversedAt := none
  pendingTimeoutAt := none
  reversedBy := none
  reversalReason := none
  reversalTransactionId := none
  retryCount := 0

/-- `n` transactions of one time. -/
def sameTimeTable (n : ℕ) : TransactionTable where
  rows := (List.range n).map sameTime
  ids := by
    rw [List.map_map]
    exact (List.map_id' (List.range n)).symm ▸ List.nodup_range

def everything : ExportTransactionsJobData := ⟨0, 0, none, none⟩

theorem matching_sameTime (n : ℕ) :
    matching (sameTimeTable n) everything = (sameTimeTable n).rows := by
  refine List.filter_eq_self.mpr fun tx htx => ?_
  obtain ⟨id, -, rfl⟩ := List.mem_map.mp htx
  rfl

theorem tie_sameTime {n : ℕ} (hn : BATCH_SIZE < n) :
    ¬ NoTieAtBoundary (sameTimeTable n).rows := by
  have hcount (p : Transaction → Bool) (b : Bool) (hp : ∀ id, p (sameTime id) = b) :
      (sameTimeTable n).rows.countP p = if b then n else 0 := by
    rw [sameTimeTable, List.countP_map, show p ∘ sameTime = fun _ => b from funext hp]
    cases b <;> simp
  refine fun h => h 0 0 ⟨?_, ?_⟩
  · rw [hcount _ false fun _ => rfl]
    exact Nat.succ_pos _
  · rw [hcount _ true fun _ => rfl]
    simpa using hn

/-- Of 1001 transactions of one time the export can lose one. -/
theorem sameTime_incomplete :
    ¬ ∀ orderBy, ExportComplete orderBy (sameTimeTable 1001) everything := by
  intro hcomplete
  have htie := tie_sameTime (show BATCH_SIZE < 1001 by decide)
  generalize 1001 = n at *
  obtain ⟨orderBy, y, hy, hnone⟩ :=
    exists_incomplete (List.Nodup.of_map _ (sameTimeTable n).ids) htie
  obtain ⟨written, ⟨enough, hwritten⟩, hperm, -⟩ := hcomplete orderBy
  have heq := hwritten _ (le_max_left enough ((sameTimeTable n).rows.length / BATCH_SIZE + 1))
  rw [matching_sameTime] at heq hperm
  rw [exportLoop_spec (Nat.lt_of_succ_le (le_max_right enough _))] at heq
  rw [← Option.some.inj heq] at hperm
  exact hnone _ (hperm.mem_iff.mpr hy)

end AdminExports

end NexaFx
