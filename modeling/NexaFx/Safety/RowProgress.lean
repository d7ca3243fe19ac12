import NexaFx.Lib.Progress
import NexaFx.Safety.RowAtomicity

/-!
# NexaFx — the writers of a wallet row come to an end

`adjustBalance`, `updateCustomization` and `rotate` wait for row locks. No order
of their statements leaves them waiting for each other: a database transaction
locks one row, and from then on waits for nothing until its commit or rollback.

* `rows_finish` — from every state that is reached, however the statements go on
  and whichever of them fail, all calls end and no row stays locked. Only a
  rollback that fails could leave a lock behind.
-/

namespace NexaFx

namespace WalletRows

open Async

-- ---------------------------------------------------------------------------
-- Locks
-- ---------------------------------------------------------------------------

/-- The database transaction of call `i` holds a lock. -/
def Locked (i : ℕ) (db : WalletDb) : Prop := ∃ l ∈ db.locks, l.2 = i

/-- A database transaction is over when it is committed or rolled back. -/
def settles : (c : RowCmd) → Except Err c.Reply → Prop
  | .commitTransaction _ _, r => failed r = false
  | .rollbackTransaction _, _ => True
  | _, _ => False

/-- The statements of call `i`. -/
def RowCmd.Of (i : ℕ) : RowCmd → Prop
  | .findOneForUpdate call _ | .stageInsert call _ | .stageUpdate call _
  | .commitTransaction call _ | .rollbackTransaction call => call = i
  | _ => True

/-- The statement locks no row. -/
def RowCmd.LockFree : RowCmd → Prop
  | .findOneForUpdate _ _ | .stageInsert _ _ => False
  | _ => True

/-- No rollback fails; any order of statements, any other failures. -/
def rollbacksSucceed : Discipline WalletCall RowCmd RowCmd.Reply Err WalletDb Answer where
  onCall _ _ _ := True
  onStep _ _ c failed := failed = true → ∀ i, c ≠ .rollbackTransaction i

section Statements

variable {i j : ℕ} {c : RowCmd} {a : c.Reply} {db db' : WalletDb} {key : WalletKey}

theorem locked_of_waiting (h : ready c db = false) : ∃ j, Locked j db := by
  have hlocked : ∀ key, (db.lockedBy key).isNone = false → ∃ j, Locked j db := by
    intro key hkey
    obtain ⟨j, hj⟩ := Option.isSome_iff_exists.mp (Option.isNone_eq_false_iff.mp hkey)
    obtain ⟨l, hl, hl2⟩ := Option.map_eq_some_iff.mp hj
    exact ⟨j, l, Table.mem_of_get _ hl, hl2⟩
  cases c with
  | findOneForUpdate call key => exact hlocked key (Bool.or_eq_false_iff.mp h).2
  | stageInsert call w => exact hlocked w.key (Bool.or_eq_false_iff.mp h).2
  | write entity stored =>
    cases stored with
    | none => exact hlocked entity.key (Bool.or_eq_false_iff.mp h).2
    | some stored => exact hlocked entity.key (Bool.or_eq_false_iff.mp h).2
  | _ => cases h

theorem locks_unlock {l : WalletKey × ℕ} (h : l ∈ (db.unlock i).locks) :
    l ∈ db.locks ∧ l.2 ≠ i := by
  simpa [WalletDb.unlock] using h

/-- A statement without a lock leaves the locks or releases some. -/
theorem locks_of_lockFree (hc : c.LockFree) (h : exec c db = .ok (a, db')) :
    ∀ l ∈ db'.locks, l ∈ db.locks := by
  cases c with
  | findOneForUpdate call key => exact hc.elim
  | stageInsert call w => exact hc.elim
  | commitTransaction call w =>
    cases h
    exact fun l hl => (locks_unlock hl).1
  | rollbackTransaction call =>
    cases h
    exact fun l hl => (locks_unlock hl).1
  | write entity stored =>
    cases stored with
    | none =>
      rw [exec] at h
      split at h
      · cases h
      · cases h
        exact fun l hl => hl
    | some stored =>
      rw [exec] at h
      split at h
      · cases h
        exact fun l hl => hl
      · cases h
        exact fun l hl => hl
  | _ =>
    cases h
    exact fun l hl => hl

/-- A lock is the one that the statement gives its call, or an old one. -/
theorem locks_exec (hc : c.Of i) (h : exec c db = .ok (a, db')) :
    ∀ l ∈ db'.locks, l.2 = i ∨ l ∈ db.locks := by
  by_cases hfree : c.LockFree
  · exact fun l hl => Or.inr (locks_of_lockFree hfree h l hl)
  have hlock : ∀ key, ∀ l ∈ (db.lock key i).locks, l.2 = i ∨ l ∈ db.locks := by
    intro key l hl
    rcases Table.mem_put Prod.fst hl with rfl | hold
    · exact Or.inl rfl
    · exact Or.inr hold
  cases c with
  | findOneForUpdate call key =>
    obtain rfl : call = i := hc
    rw [exec] at h
    split at h
    · cases h
      exact fun l hl => Or.inr hl
    · cases h
      exact hlock key
  | stageInsert call w =>
    obtain rfl : call = i := hc
    rw [exec] at h
    split at h
    · cases h
    · cases h
      exact hlock w.key
  | _ => exact absurd trivial hfree

end Statements

-- ---------------------------------------------------------------------------
-- The calls
-- ---------------------------------------------------------------------------

/-- A statement of call `i`; when it gives the call a lock, what follows it waits
for nothing until the lock is released. -/
def Brief (i : ℕ) (c : RowCmd) (next : Except Err c.Reply → RowProc Answer) : Prop :=
  c.Of i ∧ ∀ db a db', exec c db = .ok (a, db') → Locked i db' →
    Locked i db ∨ Holding server settles (next (.ok a))

abbrev Briefly (i : ℕ) (p : RowProc Answer) : Prop := p.Always (fun _ _ => True) (Brief i)

theorem brief_of_lockFree {i : ℕ} {c : RowCmd} {next : Except Err c.Reply → RowProc Answer}
    (h : c.Of i ∧ c.LockFree) : Brief i c next := by
  refine ⟨h.1, fun db a db' hexec hlocked => Or.inl ?_⟩
  obtain ⟨l, hl, hli⟩ := hlocked
  exact ⟨l, locks_of_lockFree h.2 hexec l hl, hli⟩

/-- A call of the server that answers with a balance. -/
abbrev answering (p : RowProc WalletBalance) : RowProc Answer :=
  p.bind fun b => .done (.ok (.balance b))

section AdjustBalance

variable {i : ℕ} {key : WalletKey} {delta : ℚ}

theorem holding_undo (e : Err) : Holding server settles (answering (undo i e)) :=
  .await (fun _ => rfl) fun _ hnot => absurd trivial hnot

theorem holding_publish (w : Wallet) : Holding server settles (answering (publish i w)) := by
  refine .await (fun _ => rfl) fun r hnot => ?_
  cases r with
  | ok _ => exact absurd rfl hnot
  | error e => exact holding_undo e

theorem holding_saveLocked (w : Wallet) : Holding server settles (answering (saveLocked i w)) := by
  refine .await (fun _ => rfl) fun r _ => ?_
  cases r with
  | ok _ => exact holding_publish w
  | error e => exact holding_undo e

theorem briefly_undo (e : Err) : Briefly i (answering (undo i e)) :=
  .await (brief_of_lockFree ⟨rfl, trivial⟩) (fun _ _ => .done _) fun _ => .done _

theorem briefly_publish (w : Wallet) : Briefly i (answering (publish i w)) :=
  .await (brief_of_lockFree ⟨rfl, trivial⟩) (fun _ _ => .done _) fun e => briefly_undo e

theorem briefly_saveLocked (w : Wallet) : Briefly i (answering (saveLocked i w)) :=
  .await (brief_of_lockFree ⟨rfl, trivial⟩) (fun _ _ => briefly_publish w) fun e =>
    briefly_undo e

/-- The insert locks the row, and the commit comes next. -/
theorem briefly_saveNew (w : Wallet) : Briefly i (answering (saveNew i w)) := by
  refine .await ⟨rfl, fun _ _ _ _ _ => Or.inr (holding_publish w)⟩ ?_ ?_
  · exact fun _ _ => briefly_publish w
  · exact fun e => briefly_undo e

/-- The read locks the row when it finds it; what comes next is its update or
the rollback. -/
theorem briefly_lockRow : Briefly i (answering (lockRow i key delta)) := by
  refine .await ⟨rfl, fun db found db' hexec hlocked => ?_⟩ (fun found _ => ?_) fun e =>
    briefly_undo e
  · cases found with
    | none =>
      rw [exec] at hexec
      split at hexec
      · cases hexec
        exact Or.inl hlocked
      · cases hexec
    | some w =>
      right
      show Holding server settles (Proc.bind (if _ then _ else saveLocked i _) _)
      split
      · exact holding_undo _
      · exact holding_saveLocked _
  · show Briefly i (Proc.bind (if _ then _ else if _ then _ else _) _)
    split
    · exact briefly_undo _
    · split
      · exact briefly_saveNew _
      · exact briefly_saveLocked _

theorem briefly_getBalance (accountId : UserId) (currency : String) :
    Briefly i (answering (getBalance accountId currency)) := by
  cases hcur : validateCurrency currency with
  | error e =>
    rw [getBalance_invalid hcur]
    exact .done _
  | ok cur =>
    rw [getBalance_eq hcur]
    exact .await (brief_of_lockFree ⟨trivial, trivial⟩) (fun _ _ => .done _) fun _ => .done _

theorem briefly_adjustBalance (accountId : UserId) (currency : String) (delta : ℚ) :
    Briefly i (answering (adjustBalance i accountId currency delta)) := by
  cases hcur : validateCurrency currency with
  | error e =>
    rw [adjustBalance_invalid hcur]
    exact .done _
  | ok cur =>
    rcases eq_or_ne delta 0 with rfl | hz
    · rw [adjustBalance_zero hcur]
      exact briefly_getBalance accountId cur
    · rw [adjustBalance_eq hcur hz]
      refine .await (brief_of_lockFree ⟨trivial, trivial⟩) (fun _ _ => ?_) fun _ => .done _
      exact briefly_lockRow

end AdjustBalance

/-- A plain `save` locks nothing. -/
theorem issues_save (i : ℕ) (w : Wallet) : (save w).Issues fun c => c.Of i ∧ c.LockFree := by
  refine Proc.issues_bind ?_ fun stored => ?_
  · exact Proc.issues_call.mpr ⟨trivial, trivial⟩
  · exact Proc.issues_call.mpr ⟨trivial, trivial⟩

theorem issues_rotateEach (i currentVersion : ℕ) (all : List Wallet) (counts : Rotation) :
    (rotateEach currentVersion all counts).Issues fun c => c.Of i ∧ c.LockFree := by
  induction all generalizing counts with
  | nil => exact Proc.issues_done _
  | cons wallet rest ih =>
    rw [rotateEach]
    split
    · exact ih _
    · exact Proc.issues_bind (issues_save i _) fun _ => ih _

theorem issues_rotate (i currentVersion : ℕ) :
    (rotate currentVersion).Issues fun c => c.Of i ∧ c.LockFree := by
  refine Proc.issues_bind (Proc.issues_call.mpr ⟨trivial, trivial⟩) fun all => ?_
  exact issues_rotateEach i currentVersion all _

/-- A call that locks nothing. -/
theorem briefly_of_issues {β : Type} {i : ℕ} {p : RowProc β} {f : β → Answer}
    (hp : p.Issues fun c => c.Of i ∧ c.LockFree) : Briefly i (p.bind fun b => .done (.ok (f b))) :=
  Proc.always_of_issues (fun _ _ => brief_of_lockFree)
    (Proc.issues_bind hp fun b => Proc.issues_done (.ok (f b)))

theorem briefly_updateCustomization {i : ℕ} (accountId : UserId) (currency : String)
    (label color : Option String) :
    Briefly i (answering (updateCustomization accountId currency label color)) := by
  unfold updateCustomization
  cases hcur : validateCurrency currency with
  | error e => exact .done _
  | ok cur =>
    simp only [Proc.ofExcept, Proc.bind_eq, Proc.done_ok_bind]
    refine briefly_of_issues (Proc.issues_bind ?_ fun found => ?_)
    · exact Proc.issues_call.mpr ⟨trivial, trivial⟩
    · cases found with
      | none => exact Proc.issues_throw _
      | some w => exact Proc.issues_bind (issues_save i _) fun _ => Proc.issues_done _

theorem briefly_prog (i : ℕ) (k : WalletCall) : Briefly i (prog i k) := by
  cases k with
  | adjustBalance accountId currency delta =>
    simp only [prog, Proc.bind_eq, Proc.pure_eq]
    exact briefly_adjustBalance accountId currency delta
  | updateCustomization accountId currency label color =>
    simp only [prog, Proc.bind_eq, Proc.pure_eq]
    exact briefly_updateCustomization accountId currency label color
  | rotate currentVersion =>
    simp only [prog, Proc.bind_eq, Proc.pure_eq]
    exact briefly_of_issues (issues_rotate i currentVersion)

-- ---------------------------------------------------------------------------
-- All calls end
-- ---------------------------------------------------------------------------

theorem locksHeldBriefly :
    HoldsBriefly server rollbacksSucceed Locked settles (fun i c => c.Of i) where
  waits c db h := locked_of_waiting h
  others i j c db a db' hc hexec hji hlocked := by
    obtain ⟨l, hl, rfl⟩ := hlocked
    rcases locks_exec hc hexec l hl with hli | hold
    · exact absurd hli hji
    · exact ⟨l, hold, rfl⟩
  releases cfg i th c fault hth hc hD hsettles := by
    have hunlocked : ∀ db : WalletDb, ¬ Locked i (db.unlock i) := by
      rintro db ⟨l, hl, hli⟩
      exact (locks_unlock hl).2 hli
    cases c with
    | commitTransaction call w =>
      obtain rfl : call = i := hc
      cases fault with
      | none => exact hunlocked _
      | some e => cases hsettles
    | rollbackTransaction call =>
      obtain rfl : call = i := hc
      cases fault with
      | none => exact hunlocked _
      | some e => exact absurd rfl (hD rfl call)
    | _ => exact hsettles.elim
  gets := briefly_prog
  allows cfg th c hfailed i := by
    rintro rfl
    cases hfailed

/-- Every call has returned or thrown, and no row is locked. -/
def Finished (cfg : RowConfig) : Prop :=
  (∀ i th, cfg.thread i = some th → th.proc.isDone = true) ∧ cfg.state.locks = []

/-- **All calls end**, in every interleaving. -/
theorem rows_finish {wallets : List Wallet} {cfg : RowConfig}
    (h : Reach server rollbacksSucceed (start wallets) cfg) :
    Inevitably server rollbacksSucceed Finished cfg := by
  have hfree : ∀ j, ¬ Locked j (start wallets).state := by
    rintro j ⟨l, hl, -⟩
    cases hl
  refine (locksHeldBriefly.inevitably rfl hfree h).mono fun cfg' hidle => ⟨hidle.1, ?_⟩
  exact List.eq_nil_iff_forall_not_mem.mpr fun l hl => hidle.2 l.2 ⟨l, hl, rfl⟩

/-- A debit has locked the row; another one waits for it, and so does the `save`
of a label. -/
def waiting : List (Event WalletCall Err) :=
  [.call 0 (.adjustBalance 1 "USD" (-70)), .call 1 (.adjustBalance 1 "USD" (-70)),
    .call 2 (.updateCustomization 1 "USD" (some "Savings") none), .step 0 none, .step 1 none,
    .step 2 none, .step 2 none, .step 0 none]

theorem rows_finish_waiting : ∃ cfg : RowConfig,
    (server.step cfg (.step 1 none)).isNone = true ∧
    (server.step cfg (.step 2 none)).isNone = true ∧
    Inevitably server rollbacksSucceed Finished cfg := by
  let unfailing : RowConfig → RowThread → RowCmd → Bool → Bool := fun _ _ _ failed => !failed
  obtain ⟨cfg, hrun⟩ : ∃ cfg, server.runChecked unfailing (start hundred) waiting = some cfg :=
    Option.isSome_iff_exists.mp (by decide +kernel)
  have hblocked : ((server.runChecked unfailing (start hundred) waiting).map fun cfg =>
      ((server.step cfg (.step 1 none)).isNone, (server.step cfg (.step 2 none)).isNone)) =
      some (true, true) := by decide +kernel
  rw [hrun] at hblocked
  simp only [Option.map_some, Option.some.injEq, Prod.mk.injEq] at hblocked
  have hreach : Reach server rollbacksSucceed (start hundred) cfg := by
    refine Reach.refl.of_runChecked (fun _ _ _ _ => trivial) (fun cfg th c failed h => ?_) hrun
    rintro rfl
    cases h
  exact ⟨cfg, hblocked.1, hblocked.2, rows_finish hreach⟩

end WalletRows

end NexaFx
