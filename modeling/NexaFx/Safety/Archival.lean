import NexaFx.Model.Archival

/-!
# What archival moves

The driver answers the moving statement with no rows, so the loop takes its
first batch for a short one and stops (`archiveLoop_eq`): a run moves at most
one batch of each table. It moves everything old exactly when one batch is
enough for both (`archiveAll_iff`).
-/

namespace NexaFx

namespace Archival

variable {C T A : Type}

/-- Everything old has moved, once and unchanged, and nothing else has. -/
structure Archived (cutoff : Time) (t t' : Tables C) : Prop where
  noneOld : ∀ r ∈ t'.source, ¬ r.createdAt < cutoff
  moved : (t'.archive.map Prod.fst).Perm (t.archive.map Prod.fst ++ t.old cutoff)
  kept : t'.source = t.source.filter fun r => ¬ r.createdAt < cutoff

theorem Tables.sourceIds (t : Tables C) : (t.source.map Row.id).Nodup := by
  have h := t.ids
  rw [List.map_append] at h
  exact h.of_append_left

/-- **One batch and no more.** -/
theorem archiveLoop_eq {limit : ℕ → Limit C} {cutoff : Time} {batchSize : ℕ} {now : ℕ → Time}
    (hbatch : 0 < batchSize) {fuel : ℕ} (hfuel : 0 < fuel) (k : ℕ) (t : Tables C) :
    archiveLoop limit cutoff batchSize now fuel k t =
      some (moveBatch (limit k) cutoff batchSize (now k) t).1 := by
  match fuel with
  | fuel + 1 =>
    have hempty : (moveBatch (limit k) cutoff batchSize (now k) t).2.length ≠ batchSize := by
      show 0 ≠ batchSize
      omega
    rw [archiveLoop]
    exact if_neg hempty

/-- What one batch puts into the archive. -/
theorem archive_moveBatch (limit : Limit C) (cutoff : Time) (batchSize : ℕ) (now : Time)
    (t : Tables C) :
    (moveBatch limit cutoff batchSize now t).1.archive.map Prod.fst =
      t.archive.map Prod.fst ++ limit.pick (t.old cutoff) batchSize := by
  show (t.archive ++ List.map _ _).map Prod.fst = _
  rw [List.map_append, List.map_map]
  exact congrArg _ (List.map_id' _)

/-- A batch that holds all old rows leaves exactly the others. -/
theorem remaining_old (t : Tables C) (cutoff : Time) :
    remaining t.source (t.old cutoff) = t.source.filter fun r => ¬ r.createdAt < cutoff := by
  refine List.filter_congr fun r hr => ?_
  have hmem : r.id ∈ (t.old cutoff).map Row.id ↔ r.createdAt < cutoff := by
    constructor
    · intro h
      obtain ⟨r', hr', hid⟩ := List.mem_map.mp h
      obtain ⟨hr', hold⟩ := List.mem_filter.mp hr'
      rw [← List.inj_on_of_nodup_map t.sourceIds hr' hr hid]
      exact of_decide_eq_true hold
    · exact fun h => List.mem_map_of_mem (List.mem_filter.mpr ⟨hr, decide_eq_true h⟩)
  rw [decide_eq_decide]
  exact not_congr hmem

/-- One batch archives a table exactly when it holds its old rows. -/
theorem archived_moveBatch_iff (limit : Limit C) (cutoff : Time) (batchSize : ℕ) (now : Time)
    (t : Tables C) :
    Archived cutoff t (moveBatch limit cutoff batchSize now t).1 ↔
      (t.old cutoff).length ≤ batchSize := by
  have hlength := limit.length (t.old cutoff) batchSize
  constructor
  · intro h
    have hcount := h.moved.length_eq
    rw [archive_moveBatch, List.length_append, List.length_append, hlength] at hcount
    omega
  · intro h
    have hall : limit.pick (t.old cutoff) batchSize = t.old cutoff :=
      (limit.sublist _ _).eq_of_length (by omega)
    have hkept : (moveBatch limit cutoff batchSize now t).1.source =
        t.source.filter fun r => ¬ r.createdAt < cutoff := by
      rw [← remaining_old]
      exact congrArg (remaining t.source) hall
    refine ⟨fun r hr => ?_, ?_, hkept⟩
    · rw [hkept] at hr
      exact of_decide_eq_true (List.mem_filter.mp hr).2
    · rw [archive_moveBatch, hall]

/-- A table that is left alone is archived if nothing in it is old. -/
theorem archived_self_iff (cutoff : Time) (t : Tables C) :
    Archived cutoff t t ↔ t.old cutoff = [] := by
  constructor
  · intro h
    exact List.filter_eq_nil_iff.mpr fun r hr hold => h.noneOld r hr (of_decide_eq_true hold)
  · intro h
    have hnone : ∀ r ∈ t.source, ¬ r.createdAt < cutoff := fun r hr hlt =>
      List.filter_eq_nil_iff.mp h r hr (decide_eq_true hlt)
    refine ⟨hnone, by rw [h, List.append_nil], ?_⟩
    exact (List.filter_eq_self.mpr fun r hr => decide_eq_true (hnone r hr)).symm

theorem ArchiveConfig.batch_pos (config : ArchiveConfig) : 0 < config.batch := by
  cases h : config.batchSize with
  | none => simp [ArchiveConfig.batch, h]
  | some n =>
    have := (config.bounds n h).1
    simp [ArchiveConfig.batch, h]
    omega

/-- Both tables are archived, each up to its cutoff. -/
def ArchivedDb (config : ArchiveConfig) (on : Circumstances T A) (db db' : ArchiveDb T A) : Prop :=
  Archived (cutoffOf config on.transactionsAt) db.transactions db'.transactions ∧
    Archived (cutoffOf config on.auditLogsAt) db.auditLogs db'.auditLogs

/-- `archiveAll` ends with everything old moved. -/
def ArchivesAll (config : ArchiveConfig) (on : Circumstances T A) (db : ArchiveDb T A) : Prop :=
  ∃ db', (∃ enough, ∀ fuel, enough ≤ fuel → archiveAll config on fuel db = some db') ∧
    ArchivedDb config on db db'

/-- What a run leaves behind. -/
def afterArchival (config : ArchiveConfig) (on : Circumstances T A) (db : ArchiveDb T A) :
    ArchiveDb T A where
  transactions := (moveBatch (on.transactionsLimit 0) (cutoffOf config on.transactionsAt)
    config.batch (on.transactionsAt.now 0) db.transactions).1
  auditLogs := (moveBatch (on.auditLogsLimit 0) (cutoffOf config on.auditLogsAt)
    config.batch (on.auditLogsAt.now 0) db.auditLogs).1

theorem archiveAll_eq (config : ArchiveConfig) (on : Circumstances T A) (db : ArchiveDb T A)
    {fuel : ℕ} (hfuel : 1 ≤ fuel) :
    archiveAll config on fuel db =
      some (if config.enabled then afterArchival config on db else db) := by
  unfold archiveAll archiveTable
  rw [archiveLoop_eq config.batch_pos hfuel, archiveLoop_eq config.batch_pos hfuel]
  cases config.enabled <;> rfl

/-- **Archival always ends, and moves everything old exactly when it is
enabled and one batch is enough for each table**, or when nothing is old. -/
theorem archiveAll_iff (config : ArchiveConfig) (on : Circumstances T A) (db : ArchiveDb T A) :
    (∃ db', ∃ enough, ∀ fuel, enough ≤ fuel → archiveAll config on fuel db = some db') ∧
    (ArchivesAll config on db ↔
      (db.transactions.old (cutoffOf config on.transactionsAt)).length ≤
          (if config.enabled then config.batch else 0) ∧
        (db.auditLogs.old (cutoffOf config on.auditLogsAt)).length ≤
          (if config.enabled then config.batch else 0)) := by
  have hends : ∀ fuel, 1 ≤ fuel → archiveAll config on fuel db = some _ :=
    fun fuel hfuel => archiveAll_eq config on db hfuel
  refine ⟨⟨_, _, hends⟩, ?_⟩
  have hiff : ArchivesAll config on db ↔
      ArchivedDb config on db (if config.enabled then afterArchival config on db else db) := by
    constructor
    · rintro ⟨db', ⟨enough, hdb'⟩, harchived⟩
      have heq := hdb' _ (le_max_left enough 1)
      rw [hends _ (le_max_right enough 1)] at heq
      exact Option.some.inj heq ▸ harchived
    · exact fun harchived => ⟨_, ⟨_, hends⟩, harchived⟩
  rw [hiff]
  cases config.enabled with
  | true => exact and_congr (archived_moveBatch_iff ..) (archived_moveBatch_iff ..)
  | false =>
    simp only [Bool.false_eq_true, if_false, Nat.le_zero, List.length_eq_zero_iff]
    exact and_congr (archived_self_iff ..) (archived_self_iff ..)

/-- The `LIMIT` that takes the first rows. -/
def firstRows (C : Type) : Limit C where
  pick rows n := rows.take n
  sublist rows n := List.take_sublist n rows
  length _ _ := List.length_take

/-- Eleven old transactions and batches of ten. -/
theorem eleven_not_archived : ¬ ArchivesAll
    { enabled := true, thresholdMonths := none, batchSize := some 10, bounds := by decide }
    { transactionsAt := ⟨fun _ => 1, fun _ => 100⟩, auditLogsAt := ⟨fun _ => 1, fun _ => 100⟩
      transactionsLimit := fun _ => firstRows Unit, auditLogsLimit := fun _ => firstRows Unit }
    { transactions := ⟨(List.range 11).map fun id => ⟨id, 0, ()⟩, [], by decide⟩
      auditLogs := ⟨[], [], by decide⟩ } := by
  rintro ⟨db', ⟨enough, hdb'⟩, harchived, -⟩
  have heq := hdb' _ (le_max_left enough 1)
  rw [archiveAll_eq _ _ _ (le_max_right enough 1)] at heq
  rw [← Option.some.inj heq] at harchived
  have hshort := (archived_moveBatch_iff ..).mp harchived
  revert hshort
  decide

end Archival

end NexaFx
