import NexaFx.Model.Database

/-!
# Archival

`archival/archival.service.ts`. A table and its archive hold rows of one type;
the columns other than the key and `createdAt` are left abstract. The statement
that moves a batch is one atomic step; which of the matching rows its `LIMIT`
takes is a parameter (`Limit`), and so is what the calendar makes of the
threshold (`Moment`).
-/

namespace NexaFx

namespace Archival

structure Row (C : Type) where
  id : ℕ
  createdAt : Time
  columns : C
  deriving DecidableEq

/-- A source table and its archive, whose rows also have `archivedAt`. The id is
the primary key of both, and a row that has left the one is in the other. -/
structure Tables (C : Type) where
  source : List (Row C)
  archive : List (Row C × Time)
  ids : ((source ++ archive.map Prod.fst).map Row.id).Nodup

/-- `LIMIT n` without an order: any `n` of the rows, or all. -/
structure Limit (C : Type) where
  pick : List (Row C) → ℕ → List (Row C)
  sublist : ∀ rows n, (pick rows n).Sublist rows
  length : ∀ rows n, (pick rows n).length = min n rows.length

/-- When a table is archived: `cutoff.setMonth(cutoff.getMonth() - months)` of
the current date, and `NOW()` of each query. -/
structure Moment where
  monthsBefore : ℕ → Time
  now : ℕ → Time

/-- `archive` in the configuration, within the bounds that the environment
schema enforces. -/
structure ArchiveConfig where
  enabled : Bool
  thresholdMonths : Option ℕ
  batchSize : Option ℕ
  bounds : ∀ n ∈ batchSize, 10 ≤ n ∧ n ≤ 5000

variable {C : Type}

def Row.isOld (cutoff : Time) (r : Row C) : Bool := r.createdAt < cutoff

/-- The rows of the inner `SELECT`. -/
def Tables.old (t : Tables C) (cutoff : Time) : List (Row C) := t.source.filter (Row.isOld cutoff)

/-- `DELETE ... WHERE id IN (...) RETURNING *` -/
def remaining (source moved : List (Row C)) : List (Row C) :=
  source.filter fun r => r.id ∉ moved.map Row.id

/-- Rows deleted from a table and the rows left are all its rows. -/
theorem remaining_perm {source moved : List (Row C)} (hids : (source.map Row.id).Nodup)
    (hmoved : moved.Sublist source) : (remaining source moved ++ moved).Perm source := by
  induction hmoved with
  | slnil => exact List.Perm.refl _
  | @cons moved source a hsub ih =>
    obtain ⟨ha, hids⟩ := List.nodup_cons.mp hids
    have hstays : a.id ∉ moved.map Row.id := fun h => ha ((hsub.map Row.id).subset h)
    rw [remaining, List.filter_cons_of_pos (by simpa using hstays)]
    exact (ih hids).cons a
  | @cons_cons moved source a hsub ih =>
    obtain ⟨ha, hids⟩ := List.nodup_cons.mp hids
    have hrest : remaining (a :: source) (a :: moved) = remaining source moved := by
      rw [remaining, List.filter_cons_of_neg (by simp)]
      refine List.filter_congr fun r hr => ?_
      have hne : r.id ≠ a.id := fun h => ha (h ▸ List.mem_map_of_mem hr)
      simp [hne]
    rw [hrest]
    exact List.perm_middle.trans ((ih hids).cons a)

/-- Source and archive together keep their rows. -/
theorem moved_perm (t : Tables C) {moved : List (Row C)} (hmoved : moved.Sublist t.source)
    (now : Time) :
    (remaining t.source moved ++
      (t.archive ++ moved.map fun r => (r, now)).map Prod.fst).Perm
      (t.source ++ t.archive.map Prod.fst) := by
  have hids : (t.source.map Row.id).Nodup := by
    have h := t.ids
    rw [List.map_append] at h
    exact h.of_append_left
  have harchive : (t.archive ++ moved.map fun r => (r, now)).map Prod.fst =
      t.archive.map Prod.fst ++ moved := by
    rw [List.map_append, List.map_map]
    exact congrArg _ (List.map_id' moved)
  rw [harchive]
  refine List.Perm.trans ?_ ((remaining_perm hids hmoved).append_right _)
  rw [List.append_assoc]
  exact List.perm_append_comm.append_left _

/-- The statement of one batch. The driver returns the rows of an `INSERT`
without `RETURNING`: none. -/
def moveBatch (limit : Limit C) (cutoff : Time) (batchSize : ℕ) (now : Time) (t : Tables C) :
    Tables C × List (Row C) :=
  let moved := limit.pick (t.old cutoff) batchSize
  have hmoved : moved.Sublist t.source := (limit.sublist _ _).trans List.filter_sublist
  ({ source := remaining t.source moved
     archive := t.archive ++ moved.map fun r => (r, now)
     ids := (((moved_perm t hmoved now).map Row.id).nodup_iff).mpr t.ids }, [])

/-- The `do ... while` of `archiveTable`, from query number `k` on. -/
def archiveLoop (limit : ℕ → Limit C) (cutoff : Time) (batchSize : ℕ) (now : ℕ → Time) :
    (fuel k : ℕ) → Tables C → Option (Tables C)
  | 0, _, _ => none
  | fuel + 1, k, t =>
    let (t, result) := moveBatch (limit k) cutoff batchSize (now k) t
    let batch := result.length
    if batch = batchSize then archiveLoop limit cutoff batchSize now fuel (k + 1) t else some t

/-- The cutoff of a table. -/
def cutoffOf (config : ArchiveConfig) (moment : Moment) : Time :=
  moment.monthsBefore (config.thresholdMonths.getD 12)

def ArchiveConfig.batch (config : ArchiveConfig) : ℕ := config.batchSize.getD 500

def archiveTable (config : ArchiveConfig) (moment : Moment) (limit : ℕ → Limit C) (fuel : ℕ)
    (t : Tables C) : Option (Tables C) :=
  archiveLoop limit (cutoffOf config moment) config.batch moment.now fuel 0 t

/-- The two targets, `transactions` and `audit_logs`. -/
structure ArchiveDb (T A : Type) where
  transactions : Tables T
  auditLogs : Tables A

/-- When and with which choices of the database the two tables are archived. -/
structure Circumstances (T A : Type) where
  transactionsAt : Moment
  auditLogsAt : Moment
  transactionsLimit : ℕ → Limit T
  auditLogsLimit : ℕ → Limit A

variable {T A : Type}

def archiveAll (config : ArchiveConfig) (on : Circumstances T A) (fuel : ℕ) (db : ArchiveDb T A) :
    Option (ArchiveDb T A) :=
  if ¬ config.enabled then some db
  else do
    let transactions ←
      archiveTable config on.transactionsAt on.transactionsLimit fuel db.transactions
    let auditLogs ← archiveTable config on.auditLogsAt on.auditLogsLimit fuel db.auditLogs
    return { transactions, auditLogs }

end Archival

end NexaFx
