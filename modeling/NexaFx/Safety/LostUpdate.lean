import NexaFx.Lib.RelyGuarantee
import NexaFx.Model.WalletRows

/-!
# NexaFx — no balance update is lost

`adjustBalance` is serialized by the row lock; `updateCustomization` and
`rotate` read a wallet and save it later without one. This module proves, for
every interleaving of any number of these calls at every statement and with any
failures, that the stored balances are the initial ones plus the deltas of the
`adjustBalance` calls that returned — as long as each plain `save` finds, when
it reads the row again, the balance that was loaded (`currentSaves`).

The proof relies on the lock: while a database transaction holds a key, nobody
else changes that row (`RowRely`).
-/

namespace NexaFx

namespace WalletRows

open Async Decimal Proc

/-! ## What the calls have added -/

/-- The delta of an `adjustBalance` call that has returned. -/
def earnedBy (key : WalletKey) (k : WalletCall) (p : RowProc Answer) : ℚ :=
  match k, p with
  | .adjustBalance accountId currency delta, .done (.ok _) =>
    if (accountId, normalizeCurrencyCode currency) = key then delta else 0
  | _, _ => 0

def earned (key : WalletKey) (th : RowThread) : ℚ := earnedBy key th.call th.proc

@[simp] theorem earnedBy_await (key : WalletKey) (k : WalletCall) (c : RowCmd)
    (next : Except Err c.Reply → RowProc Answer) : earnedBy key k (.await c next) = 0 := by
  cases k <;> rfl

@[simp] theorem earnedBy_error (key : WalletKey) (k : WalletCall) (e : Err) :
    earnedBy key k (.done (.error e)) = 0 := by
  cases k <;> rfl

theorem earnedBy_zero (key : WalletKey) (accountId : UserId) (currency : String) {delta : ℚ}
    (hz : delta = 0) (p : RowProc Answer) :
    earnedBy key (.adjustBalance accountId currency delta) p = 0 := by
  cases p with
  | await c next => rfl
  | done r =>
    cases r with
    | error e => rfl
    | ok a => simp [earnedBy, hz]

/-- The deltas of all `adjustBalance` calls on a wallet that have returned. -/
def total (cfg : RowConfig) (key : WalletKey) : ℚ := (cfg.threads.map (earned key)).sum

/-! ## The discipline -/

/-- A delta of whole hundredths. -/
def WalletCall.TwoDecimal : WalletCall → Prop
  | .adjustBalance _ _ delta => ∃ n : ℤ, 100 * delta = n
  | _ => True

/-- Two-decimal deltas; any order of statements, any failures. -/
def twoDecimals : Discipline WalletCall RowCmd RowCmd.Reply Err WalletDb Answer where
  onCall _ _ k := k.TwoDecimal
  onStep _ _ _ _ := True

/-- When a plain `save` reads the row again, it holds the balance that the entity
was loaded with. -/
def currentSaves : Discipline WalletCall RowCmd RowCmd.Reply Err WalletDb Answer where
  onCall _ _ k := k.TwoDecimal
  onStep cfg _ c failed := failed = false → ∀ entity, c = .reread entity →
    (cfg.state.row entity.key).map Wallet.balance = some entity.balance

/-! ## Rely and guarantee -/

/-- Every balance is the initial one and what the calls have added. -/
def Balanced (initial : WalletKey → ℤ) (cfg : RowConfig) : Prop :=
  ∀ key, (cfg.state.cents key : ℚ) = initial key + 100 * total cfg key

/-- The rows that `i` has locked stay as they are. -/
def RowRely (i : ℕ) (_ : WalletCall) (cfg cfg' : RowConfig) : Prop :=
  ∀ key, cfg.state.lockedBy key = some i →
    cfg'.state.lockedBy key = some i ∧ cfg'.state.row key = cfg.state.row key

/-- A step adds to the balances what the call has earned with it, and respects
the locks of the others. -/
structure RowGuar (i : ℕ) (_ : WalletCall) (cfg cfg' : RowConfig) : Prop where
  adds : ∃ th th', cfg.thread i = some th ∧ (∀ key, earned key th = 0) ∧ th'.id = i ∧
    cfg'.threads = Table.put Thread.id th' cfg.threads ∧
    ∀ key, (cfg'.state.cents key : ℚ) = cfg.state.cents key + 100 * earned key th'
  locks : ∀ key j, j ≠ i → cfg.state.lockedBy key = some j →
    cfg'.state.lockedBy key = some j ∧ cfg'.state.row key = cfg.state.row key

theorem Balanced.keeps {initial : WalletKey → ℤ} {i : ℕ} {k : WalletCall} {cfg cfg' : RowConfig}
    (h : Balanced initial cfg) (hg : RowGuar i k cfg cfg') : Balanced initial cfg' := by
  obtain ⟨th, th', hth, hzero, hid, hthreads, hcents⟩ := hg.adds
  intro key
  have hsum : total cfg' key = total cfg key + earned key th' := by
    have hget : Table.get Thread.id cfg.threads th'.id = some th := by
      rw [hid]
      exact hth
    unfold total
    rw [hthreads, Table.sum_put, hget]
    simp [hzero key]
  rw [hcents key, h key, hsum]
  ring

section Steps

variable {initial : WalletKey → ℤ} {i : ℕ} {k : WalletCall} {cfg : RowConfig}

/-- The rest of call `i` is safe. -/
abbrev RowSafe (initial : WalletKey → ℤ) (i : ℕ) (k : WalletCall) (p : RowProc Answer)
    (cfg : RowConfig) : Prop :=
  Safe server currentSaves (Balanced initial) (RowRely i k) (RowGuar i k) i k p cfg

theorem rowGuar_resume {th : RowThread} {c : RowCmd} {next : Except Err c.Reply → RowProc Answer}
    {r : Except Err (c.Reply × WalletDb)} (hth : cfg.thread i = some th) (hk : th.call = k)
    (hproc : th.proc = .await c next)
    (hcents : ∀ key, ((after r cfg.state).cents key : ℚ) =
      cfg.state.cents key + 100 * earnedBy key k (next (reply r)))
    (hlocks : ∀ key j, j ≠ i → cfg.state.lockedBy key = some j →
      (after r cfg.state).lockedBy key = some j ∧
      (after r cfg.state).row key = cfg.state.row key) :
    RowGuar i k cfg (cfg.resume th next r) := by
  have hid : th.id = i := Config.id_of_thread hth
  refine ⟨⟨th, { th with begun := true, proc := next (reply r) }, hth, ?_, hid, rfl, ?_⟩, hlocks⟩
  · intro key
    rw [earned, hproc, earnedBy_await]
  · intro key
    rw [earned, hk]
    exact hcents key

/-- A statement that leaves rows and locks alone; what follows earns nothing yet. -/
theorem safe_await {c : RowCmd} {next : Except Err c.Reply → RowProc Answer}
    (hread : ∀ db a db', exec c db = .ok (a, db') → db' = db)
    (hnext : ∀ r key, earnedBy key k (next r) = 0)
    (hok : ∀ (cfg' : RowConfig) a, exec c cfg'.state = .ok (a, cfg'.state) → RowRely i k cfg cfg' →
      (∀ entity, c = .reread entity →
        (cfg'.state.row entity.key).map Wallet.balance = some entity.balance) →
      ∀ cfg'' : RowConfig, cfg''.state = cfg'.state → RowSafe initial i k (next (.ok a)) cfg'')
    (herr : ∀ e cfg', RowRely i k cfg cfg' → ∀ cfg'' : RowConfig, cfg''.state = cfg'.state →
      RowSafe initial i k (next (.error e)) cfg'') :
    RowSafe initial i k (.await c next) cfg := by
  intro cfg' th fault hr _ hth hk hproc _ _ hD
  cases hout : outcome fault (server.exec c cfg'.state) with
  | error e =>
    refine ⟨rowGuar_resume hth hk hproc ?_ fun _ _ _ h => ⟨h, rfl⟩, ?_⟩
    · intro key
      rw [hnext, mul_zero, add_zero]
      rfl
    · exact herr e cfg' hr _ rfl
  | ok r =>
    obtain ⟨a, db'⟩ := r
    have hexec : exec c cfg'.state = .ok (a, db') := (outcome_eq_ok hout).2
    obtain rfl := hread _ _ _ hexec
    rw [hout] at hD
    refine ⟨rowGuar_resume hth hk hproc ?_ fun _ _ _ h => ⟨h, rfl⟩, ?_⟩
    · intro key
      rw [hnext, mul_zero, add_zero]
      rfl
    · exact hok cfg' a hexec hr (hD rfl) _ rfl

/-! ### The database transaction of `adjustBalance` -/

/-- What is left is the rollback and the error. -/
def Rolls (i : ℕ) (p : RowProc Answer) : Prop :=
  ∃ next, p = .await (.rollbackTransaction i) next ∧ ∀ r, ∃ e, next r = .done (.error e)

/-- What is left is the commit of `w`, or else the rollback. -/
def Commits (i : ℕ) (w : Wallet) (p : RowProc Answer) : Prop :=
  ∃ next, p = .await (.commitTransaction i w) next ∧ (∃ a, next (.ok ()) = .done (.ok a)) ∧
    ∀ e, Rolls i (next (.error e))

/-- What is left is one statement, then the commit of `w`; or else the rollback. -/
def Stages (i : ℕ) (c : RowCmd) (w : Wallet) (p : RowProc Answer) : Prop :=
  ∃ next, p = .await c next ∧ (∀ a, Commits i w (next (.ok a))) ∧
    ∀ e, Rolls i (next (.error e))

/-- A rollback releases the locks and adds nothing. -/
theorem Rolls.safe {p : RowProc Answer} (h : Rolls i p) : RowSafe initial i k p cfg := by
  obtain ⟨next, rfl, hnext⟩ := h
  intro cfg' th fault _ _ hth hk hproc _ _ _
  refine ⟨rowGuar_resume hth hk hproc ?_ ?_, ?_⟩
  · intro key
    obtain ⟨e, he⟩ := hnext
      (reply (outcome fault (server.exec (.rollbackTransaction i) cfg'.state)))
    rw [he, earnedBy_error, mul_zero, add_zero]
    cases fault <;> rfl
  · intro key j hj hlocked
    cases fault with
    | none => exact ⟨WalletDb.lockedBy_unlock hlocked hj, rfl⟩
    | some e => exact ⟨hlocked, rfl⟩
  · obtain ⟨e, he⟩ := hnext
      (reply (outcome fault (server.exec (.rollbackTransaction i) cfg'.state)))
    rw [he]
    trivial

theorem rolls_of {next : Except Err Unit → RowProc Answer} {e : Err}
    (herr : ∀ e', next (.error e') = .done (.error e')) (hok : next (.ok ()) = .done (.error e)) :
    Rolls i (.await (.rollbackTransaction i) next) := by
  refine ⟨next, rfl, ?_⟩
  rintro (e' | a)
  · exact ⟨e', herr e'⟩
  · exact ⟨e, hok⟩

theorem Rolls.earned {p : RowProc Answer} (h : Rolls i p) (key : WalletKey) :
    earnedBy key k p = 0 := by
  obtain ⟨next, rfl, -⟩ := h
  exact earnedBy_await ..

section Adjust

variable {accountId : UserId} {currency : String} {delta : ℚ} {w : Wallet}

/-- The commit adds the delta to the locked row. -/
theorem Commits.safe {p : RowProc Answer} (h : Commits i w p)
    (hkey : w.key = (accountId, normalizeCurrencyCode currency))
    (hlocked : cfg.state.lockedBy w.key = some i)
    (hbal : (w.balance : ℚ) = cfg.state.cents w.key + 100 * delta) :
    RowSafe initial i (.adjustBalance accountId currency delta) p cfg := by
  obtain ⟨next, rfl, ⟨a, hok⟩, herr⟩ := h
  intro cfg' th fault hr _ hth hk hproc _ _ _
  obtain ⟨hlocked', hrow⟩ := hr w.key hlocked
  have hcents : cfg'.state.cents w.key = cfg.state.cents w.key := by
    rw [WalletDb.cents, hrow, ← WalletDb.cents]
  rw [← hcents] at hbal
  cases fault with
  | some e =>
    refine ⟨rowGuar_resume hth hk hproc ?_ fun _ _ _ h => ⟨h, rfl⟩, (herr e).safe⟩
    intro key
    refine Eq.trans ?_ (congrArg (_ + 100 * ·) ((herr e).earned key).symm)
    rw [mul_zero, add_zero]
    rfl
  | none =>
    refine ⟨rowGuar_resume hth hk hproc ?_ ?_, ?_⟩
    · intro key
      change (((cfg'.state.put w).unlock i).cents key : ℚ) =
        _ + 100 * earnedBy key _ (next (.ok ()))
      rw [hok, WalletDb.cents_unlock, WalletDb.cents_put]
      simp only [earnedBy, ← hkey]
      split
      · rename_i heq
        rw [← heq, hbal]
      · rw [mul_zero, add_zero]
    · intro key j hj hlock
      have hne : w.key ≠ key := by
        rintro rfl
        rw [hlocked'] at hlock
        exact hj (Option.some.inj hlock).symm
      refine ⟨WalletDb.lockedBy_unlock hlock hj, ?_⟩
      change ((cfg'.state.put w).unlock i).row key = _
      rw [WalletDb.row_unlock, WalletDb.row_put, if_neg hne]
    · change RowSafe initial i _ (next (.ok ())) _
      rw [hok]
      trivial

/-- `manager.save` of the locked wallet. -/
theorem Stages.safe_update {p : RowProc Answer} (h : Stages i (.stageUpdate i w) w p)
    (hkey : w.key = (accountId, normalizeCurrencyCode currency))
    (hlocked : cfg.state.lockedBy w.key = some i)
    (hbal : (w.balance : ℚ) = cfg.state.cents w.key + 100 * delta) :
    RowSafe initial i (.adjustBalance accountId currency delta) p cfg := by
  obtain ⟨next, rfl, hok, herr⟩ := h
  refine safe_await ?_ ?_ ?_ fun e _ _ _ _ => (herr e).safe
  · rintro db a db' ⟨⟩
    rfl
  · rintro (e | a) key
    · exact (herr e).earned key
    · obtain ⟨next', hnext', -⟩ := hok a
      rw [hnext', earnedBy_await]
  · intro cfg' a _ hr _ cfg'' hstate
    obtain ⟨hlocked', hrow⟩ := hr w.key hlocked
    refine (hok a).safe hkey (by rw [hstate, hlocked']) ?_
    rw [hbal, hstate, WalletDb.cents, WalletDb.cents, hrow]

/-- `manager.save` of a new wallet: it is refused when the wallet exists by now,
else it takes the index entry. -/
theorem Stages.safe_insert {p : RowProc Answer} (h : Stages i (.stageInsert i w) w p)
    (hkey : w.key = (accountId, normalizeCurrencyCode currency))
    (hbal : (w.balance : ℚ) = 100 * delta) :
    RowSafe initial i (.adjustBalance accountId currency delta) p cfg := by
  obtain ⟨next, rfl, hok, herr⟩ := h
  intro cfg' th fault hr _ hth hk hproc hready _ _
  cases hout : outcome fault (server.exec (.stageInsert i w) cfg'.state) with
  | error e =>
    refine ⟨rowGuar_resume hth hk hproc ?_ fun _ _ _ h => ⟨h, rfl⟩, (herr e).safe⟩
    intro key
    refine Eq.trans ?_ (congrArg (_ + 100 * ·) ((herr e).earned key).symm)
    rw [mul_zero, add_zero]
    rfl
  | ok r =>
    obtain ⟨a, db'⟩ := r
    have hexec : exec (.stageInsert i w) cfg'.state = .ok (a, db') := (outcome_eq_ok hout).2
    cases hrow : cfg'.state.row w.key with
    | some w' =>
      simp only [exec, hrow] at hexec
      cases hexec
    | none =>
      simp only [exec, hrow] at hexec
      cases hexec
      have hfree : cfg'.state.lockedBy w.key = none := by
        change ((cfg'.state.row w.key).isSome || (cfg'.state.lockedBy w.key).isNone) = true
          at hready
        rw [hrow] at hready
        simpa using hready
      refine ⟨rowGuar_resume hth hk hproc ?_ ?_, ?_⟩
      · intro key
        obtain ⟨next', hnext', -⟩ := hok ()
        change ((cfg'.state.lock w.key i).cents key : ℚ) =
          _ + 100 * earnedBy key _ (next (.ok ()))
        rw [hnext', earnedBy_await, mul_zero, add_zero, WalletDb.cents_lock]
      · intro key j hj hlock
        have hne : w.key ≠ key := by
          rintro rfl
          rw [hfree] at hlock
          cases hlock
        refine ⟨?_, rfl⟩
        change (cfg'.state.lock w.key i).lockedBy key = some j
        rw [WalletDb.lockedBy_lock, if_neg hne, hlock]
      · refine (hok ()).safe hkey ?_ ?_
        · change (cfg'.state.lock w.key i).lockedBy w.key = some i
          rw [WalletDb.lockedBy_lock, if_pos rfl]
        · change _ = ((cfg'.state.lock w.key i).cents w.key : ℚ) + _
          rw [WalletDb.cents_lock, WalletDb.cents, hrow, hbal]
          simp

/-- The wallet as the database transaction is going to save it. -/
def adjustedWallet (key : WalletKey) (found : Option Wallet) (delta : ℚ) : Wallet :=
  withBalance (found.getD (.create key.1 key.2))
    (Db.newBalance (found.getD (.create key.1 key.2)).balance delta)

theorem adjustedWallet_balance (key : WalletKey) (found : Option Wallet) {n : ℤ}
    (hn : 100 * delta = n) : ((adjustedWallet key found delta).balance : ℚ) =
      ((found.map Wallet.balance).getD 0 : ℤ) + 100 * delta := by
  have hround : Db.newBalance (found.getD (.create key.1 key.2)).balance delta =
      (found.getD (.create key.1 key.2)).balance + n := by
    rw [Db.newBalance, hn, ← Int.cast_add, roundHalfAway_intCast]
  have hfound : (found.getD (.create key.1 key.2)).balance = (found.map Wallet.balance).getD 0 := by
    cases found <;> rfl
  rw [adjustedWallet, withBalance, hround, hfound, hn, Int.cast_add]

/-- The locking read, and all that follows. -/
theorem safe_findOneForUpdate {key : WalletKey}
    (hkey : key = (accountId, normalizeCurrencyCode currency)) {n : ℤ} (hn : 100 * delta = n)
    {next : Except Err (RowCmd.Reply (.findOneForUpdate i key)) → RowProc Answer}
    (herr : ∀ e, Rolls i (next (.error e)))
    (hshort : ∀ found, (adjustedWallet key found delta).balance < 0 → Rolls i (next (.ok found)))
    (hinsert : ¬ (adjustedWallet key none delta).balance < 0 →
      Stages i (.stageInsert i (adjustedWallet key none delta)) (adjustedWallet key none delta)
        (next (.ok none)))
    (hupdate : ∀ w, ¬ (adjustedWallet key (some w) delta).balance < 0 →
      Stages i (.stageUpdate i (adjustedWallet key (some w) delta))
        (adjustedWallet key (some w) delta) (next (.ok (some w)))) :
    RowSafe initial i (.adjustBalance accountId currency delta)
      (.await (.findOneForUpdate i key) next) cfg := by
  have hzero : ∀ r key', earnedBy key' (.adjustBalance accountId currency delta) (next r) = 0 := by
    rintro (e | found) key'
    · exact (herr e).earned key'
    by_cases hneg : (adjustedWallet key found delta).balance < 0
    · exact (hshort found hneg).earned key'
    cases found with
    | none =>
      obtain ⟨next', hnext', -⟩ := hinsert hneg
      rw [hnext', earnedBy_await]
    | some w =>
      obtain ⟨next', hnext', -⟩ := hupdate w hneg
      rw [hnext', earnedBy_await]
  intro cfg' th fault hr _ hth hk hproc hready _ _
  cases fault with
  | some e =>
    refine ⟨rowGuar_resume hth hk hproc ?_ fun _ _ _ h => ⟨h, rfl⟩, (herr e).safe⟩
    intro key'
    rw [hzero, mul_zero, add_zero]
    rfl
  | none =>
    change RowGuar i _ cfg' (cfg'.resume th next (exec (.findOneForUpdate i key) cfg'.state)) ∧
      RowSafe initial i _ (next (reply (exec (.findOneForUpdate i key) cfg'.state)))
        (cfg'.resume th next (exec (.findOneForUpdate i key) cfg'.state))
    cases hrow : cfg'.state.row key with
    | none =>
      have hexec : exec (.findOneForUpdate i key) cfg'.state = .ok (none, cfg'.state) := by
        rw [exec, hrow]
      rw [hexec]
      refine ⟨rowGuar_resume hth hk hproc ?_ fun _ _ _ h => ⟨h, rfl⟩, ?_⟩
      · intro key'
        rw [hzero, mul_zero, add_zero]
        rfl
      · by_cases hneg : (adjustedWallet key none delta).balance < 0
        · exact (hshort none hneg).safe
        · refine (hinsert hneg).safe_insert hkey ?_
          rw [adjustedWallet_balance key none hn]
          simp
    | some w =>
      have hexec : exec (.findOneForUpdate i key) cfg'.state =
          .ok (some w, cfg'.state.lock key i) := by
        rw [exec, hrow]
      have hfree : cfg'.state.lockedBy key = none := by
        change ((cfg'.state.row key).isNone || (cfg'.state.lockedBy key).isNone) = true at hready
        rw [hrow] at hready
        simpa using hready
      rw [hexec]
      refine ⟨rowGuar_resume hth hk hproc ?_ ?_, ?_⟩
      · intro key'
        rw [hzero, mul_zero, add_zero]
        rfl
      · intro key' j hj hlock
        have hne : key ≠ key' := by
          rintro rfl
          rw [hfree] at hlock
          cases hlock
        refine ⟨?_, rfl⟩
        change (cfg'.state.lock key i).lockedBy key' = some j
        rw [WalletDb.lockedBy_lock, if_neg hne, hlock]
      · by_cases hneg : (adjustedWallet key (some w) delta).balance < 0
        · exact (hshort (some w) hneg).safe
        · have hwkey : (adjustedWallet key (some w) delta).key = key :=
            (WalletDb.key_of_row hrow : w.key = key)
          refine (hupdate w hneg).safe_update (hwkey.trans hkey) ?_ ?_
          · rw [hwkey]
            change (cfg'.state.lock key i).lockedBy key = some i
            rw [WalletDb.lockedBy_lock, if_pos rfl]
          · rw [adjustedWallet_balance key (some w) hn, hwkey]
            change _ = ((cfg'.state.lock key i).cents key : ℚ) + _
            rw [WalletDb.cents_lock, WalletDb.cents_of_row hrow]
            rfl

theorem prog_adjustBalance {cur : String} (hcur : validateCurrency currency = .ok cur)
    (hz : delta ≠ 0) :
    prog i (.adjustBalance accountId currency delta) =
      (withTransaction i (adjustRow i (accountId, cur) delta)).bind fun saved =>
        .done (.ok (.balance (toBalance saved))) := by
  simp only [prog, adjustBalance, hcur, if_neg hz, Proc.ofExcept, bind_eq, pure_eq, done_ok_bind,
    bind_assoc]

theorem safe_adjustBalance_ne {n : ℤ} (hn : 100 * delta = n)
    (hcur : validateCurrency currency = .ok (normalizeCurrencyCode currency)) (hz : delta ≠ 0)
    {p : RowProc Answer} (hp : p = prog i (.adjustBalance accountId currency delta)) :
    RowSafe initial i (.adjustBalance accountId currency delta) p cfg := by
  rw [hp, prog_adjustBalance hcur hz]
  refine safe_await (c := .startTransaction) ?_ ?_ ?_ fun _ _ _ _ _ => trivial
  · rintro db a db' ⟨⟩
    rfl
  · rintro (e | a) key
    · exact earnedBy_error ..
    · exact earnedBy_await ..
  · intro cfg' a _ _ _ cfg'' _
    refine safe_findOneForUpdate rfl hn (fun _ => rolls_of (fun _ => rfl) rfl) ?_ ?_ ?_
    · intro found hneg
      change Rolls i (Proc.bind (Proc.bind (Proc.attempt (Proc.bind (Proc.bind
        (Proc.rejectWhen ((adjustedWallet _ found delta).balance < 0) _) _) _)) _) _)
      rw [rejectWhen_pos hneg]
      exact rolls_of (fun _ => rfl) rfl
    · intro hpos
      change Stages i _ _ (Proc.bind (Proc.bind (Proc.attempt (Proc.bind (Proc.bind
        (Proc.rejectWhen ((adjustedWallet _ none delta).balance < 0) _) _) _)) _) _)
      rw [rejectWhen_neg hpos]
      refine ⟨_, rfl, fun _ => ⟨_, rfl, ⟨_, rfl⟩, ?_⟩, ?_⟩
      · exact fun _ => rolls_of (fun _ => rfl) rfl
      · exact fun _ => rolls_of (fun _ => rfl) rfl
    · intro w hpos
      change Stages i _ _ (Proc.bind (Proc.bind (Proc.attempt (Proc.bind (Proc.bind
        (Proc.rejectWhen ((adjustedWallet _ (some w) delta).balance < 0) _) _) _)) _) _)
      rw [rejectWhen_neg hpos]
      refine ⟨_, rfl, fun _ => ⟨_, rfl, ⟨_, rfl⟩, ?_⟩, ?_⟩
      · exact fun _ => rolls_of (fun _ => rfl) rfl
      · exact fun _ => rolls_of (fun _ => rfl) rfl

/-- A delta of zero only reads the balance. -/
theorem safe_adjustBalance_zero (hz : delta = 0) {p : RowProc Answer}
    (hp : p = prog i (.adjustBalance accountId currency delta)) :
    RowSafe initial i (.adjustBalance accountId currency delta) p cfg := by
  have hprog : prog i (.adjustBalance accountId currency delta) =
      (Proc.ofExcept (validateCurrency currency)).bind fun cur =>
        (getBalance accountId cur).bind fun b => .done (.ok (.balance b)) := by
    simp only [prog, adjustBalance, if_pos hz, bind_eq, pure_eq, bind_assoc]
  rw [hp, hprog]
  cases hcur : validateCurrency currency with
  | error e => trivial
  | ok cur =>
    rw [Proc.ofExcept, done_ok_bind, getBalance, bind_eq]
    cases hcur' : validateCurrency cur with
    | error e => trivial
    | ok cur' =>
      refine safe_await (c := .findOne (accountId, cur')) ?_
        (fun _ key => earnedBy_zero key accountId currency hz _) ?_ fun _ _ _ _ _ => trivial
      · rintro db a db' ⟨⟩
        rfl
      · rintro cfg' (_ | w) _ _ _ cfg'' _
        · trivial
        · trivial

theorem safe_adjustBalance {n : ℤ} (hn : 100 * delta = n) {p : RowProc Answer}
    (hp : p = prog i (.adjustBalance accountId currency delta)) :
    RowSafe initial i (.adjustBalance accountId currency delta) p cfg := by
  cases hcur : validateCurrency currency with
  | error e =>
    have hprog : prog i (.adjustBalance accountId currency delta) = .done (.error e) := by
      simp only [prog, adjustBalance, hcur, Proc.ofExcept, bind_eq, done_error_bind]
    rw [hp, hprog]
    trivial
  | ok cur =>
    have hnorm := hcur
    rw [validateCurrency_ok hcur] at hnorm
    rcases eq_or_ne delta 0 with hz | hz
    · exact safe_adjustBalance_zero hz hp
    · exact safe_adjustBalance_ne hn hnorm hz hp

end Adjust

/-! ### Plain saves -/

/-- The update of a `save` whose entity carries the balance that was read. -/
theorem safe_write {entity stored : Wallet} (hbal : stored.balance = entity.balance)
    {rest : Except Err Unit → RowProc Answer}
    (hrest : ∀ r key, earnedBy key k (rest r) = 0)
    (hnext : ∀ r cfg', RowSafe initial i k (rest r) cfg') :
    RowSafe initial i k (.await (.write entity (some stored)) rest) cfg := by
  intro cfg' th fault _ _ hth hk hproc hready _ _
  refine ⟨rowGuar_resume hth hk hproc ?_ ?_, hnext _ _⟩
  · intro key
    rw [hrest, mul_zero, add_zero]
    cases fault with
    | some e => rfl
    | none =>
      change ((after (exec (.write entity (some stored)) cfg'.state) cfg'.state).cents key : ℚ) = _
      cases hrow : cfg'.state.row entity.key with
      | none =>
        rw [exec, hrow]
        rfl
      | some w =>
        rw [exec, hrow]
        change ((cfg'.state.put ((diff entity stored).apply w)).cents key : ℚ) = _
        rw [WalletDb.cents_put, apply_key, apply_diff_balance hbal]
        split
        · rename_i hwkey
          rw [WalletDb.key_of_row hrow] at hwkey
          rw [← hwkey, WalletDb.cents_of_row hrow]
        · rfl
  · intro key j hj hlock
    cases fault with
    | some e => exact ⟨hlock, rfl⟩
    | none =>
      change (after (exec (.write entity (some stored)) cfg'.state) cfg'.state).lockedBy key = _ ∧
        (after (exec (.write entity (some stored)) cfg'.state) cfg'.state).row key = _
      cases hrow : cfg'.state.row entity.key with
      | none =>
        rw [exec, hrow]
        exact ⟨hlock, rfl⟩
      | some w =>
        rw [exec, hrow]
        refine ⟨hlock, ?_⟩
        change (cfg'.state.put ((diff entity stored).apply w)).row key = _
        rw [WalletDb.row_put, apply_key, WalletDb.key_of_row hrow]
        split
        · rename_i hkey
          subst hkey
          -- a locked row is only written when there is nothing to write
          have hnone : diff entity stored = .none := by
            change (decide (diff entity stored = .none) ||
              (cfg'.state.lockedBy entity.key).isNone) = true at hready
            rw [hlock] at hready
            simpa using hready
          rw [hnone, apply_none, hrow]
        · rfl

/-- A `save` whose entity carries the stored balance does not touch balances. -/
theorem safe_save {entity : Wallet} {cont : Unit → RowProc Answer}
    (hcont : ∀ key, earnedBy key k (cont ()) = 0)
    (hnext : ∀ cfg', RowSafe initial i k (cont ()) cfg') :
    RowSafe initial i k ((save entity).bind cont) cfg := by
  have hrest : ∀ r key, earnedBy key k (Proc.bind (.done r) cont) = 0 := by
    rintro (e | a) key
    · exact earnedBy_error ..
    · exact hcont key
  refine safe_await (c := .reread entity) ?_ ?_ ?_ fun _ _ _ _ _ => trivial
  · rintro db a db' ⟨⟩
    rfl
  · rintro (e | a) key
    · exact earnedBy_error ..
    · exact earnedBy_await ..
  · intro cfg' stored hexec _ hcurrent cfg'' _
    cases hexec
    -- the row was there, with the balance of the entity
    obtain ⟨row, hrow, hbal⟩ := Option.map_eq_some_iff.mp (hcurrent entity rfl)
    rw [hrow]
    refine safe_write hbal hrest ?_
    rintro (e | a) cfg'
    · trivial
    · exact hnext cfg'

theorem safe_updateCustomization {accountId : UserId} {currency : String}
    {label color : Option String} {p : RowProc Answer}
    (hp : p = prog i (.updateCustomization accountId currency label color)) :
    RowSafe initial i (.updateCustomization accountId currency label color) p cfg := by
  have hprog : prog i (.updateCustomization accountId currency label color) =
      (updateCustomization accountId currency label color).bind fun b =>
        .done (.ok (.balance b)) := rfl
  rw [hp, hprog, updateCustomization]
  cases hcur : validateCurrency currency with
  | error e => trivial
  | ok cur =>
    refine safe_await (c := .findOne (accountId, cur)) ?_ ?_ ?_ fun _ _ _ _ _ => trivial
    · rintro db a db' ⟨⟩
      rfl
    · exact fun _ _ => rfl
    · rintro cfg' (_ | w) _ _ _ cfg'' _
      · trivial
      · change RowSafe initial i _ (Proc.bind (Proc.bind (save (customize w label color)) _) _) _
        rw [bind_assoc]
        exact safe_save (fun _ => rfl) fun _ => trivial

/-- The loop over the wallets loaded up front. -/
theorem safe_rotateEach {v version : ℕ} (all : List Wallet) (counts : Rotation) :
    RowSafe initial i (.rotate v)
      ((rotateEach version all counts).bind fun r => .done (.ok (.rotation r))) cfg := by
  induction all generalizing counts cfg with
  | nil => trivial
  | cons w rest ih =>
    rw [rotateEach]
    split
    · exact ih _
    · rw [bind_eq, bind_assoc]
      exact safe_save (fun _ => rfl) fun _ => ih _

theorem safe_rotate {version : ℕ} :
    RowSafe initial i (.rotate version) (prog i (.rotate version)) cfg := by
  refine safe_await (c := .find) ?_ (fun _ _ => rfl) ?_ fun _ _ _ _ _ => trivial
  · rintro db a db' ⟨⟩
    rfl
  · exact fun _ all _ _ _ _ _ => safe_rotateEach all _

end Steps

/-! ## All runs -/

theorem safe_prog {initial : WalletKey → ℤ} {i : ℕ} {k : WalletCall} {cfg : RowConfig}
    (hk : k.TwoDecimal) {p : RowProc Answer} (hp : p = prog i k) : RowSafe initial i k p cfg := by
  cases k with
  | adjustBalance accountId currency delta =>
    obtain ⟨n, hn⟩ := hk
    exact safe_adjustBalance hn hp
  | updateCustomization accountId currency label color => exact safe_updateCustomization hp
  | rotate version =>
    rw [hp]
    exact safe_rotate

/-- A call that was just made has not returned. -/
theorem earnedBy_prog (i : ℕ) (k : WalletCall) (key : WalletKey) :
    earnedBy key k (prog i k) = 0 := by
  cases k with
  | updateCustomization accountId currency label color => rfl
  | rotate version => rfl
  | adjustBalance accountId currency delta =>
    cases hcur : validateCurrency currency with
    | error e =>
      have hprog : prog i (.adjustBalance accountId currency delta) = .done (.error e) := by
        simp only [prog, adjustBalance, hcur, Proc.ofExcept, bind_eq, done_error_bind]
      rw [hprog, earnedBy_error]
    | ok cur =>
      rcases eq_or_ne delta 0 with hz | hz
      · exact earnedBy_zero key accountId currency hz _
      · rw [prog_adjustBalance hcur hz]
        exact earnedBy_await ..

theorem walletRows_relyGuarantee (initial : WalletKey → ℤ) :
    RelyGuarantee server currentSaves (Balanced initial) RowRely RowGuar where
  refl _ _ _ _ h := ⟨h, rfl⟩
  trans i k cfg₁ cfg₂ cfg₃ h₁ h₂ key hlock := by
    obtain ⟨hlock', hrow⟩ := h₁ key hlock
    obtain ⟨hlock'', hrow'⟩ := h₂ key hlock'
    exact ⟨hlock'', hrow'.trans hrow⟩
  compat i k j th cfg cfg' _ hj hg _ key hlock := hg.locks key j hj hlock
  keeps _ _ _ _ hJ hg := hJ.keeps hg
  spawn cfg i k hJ hfresh hD := by
    refine ⟨?_, fun _ _ _ _ h => ⟨h, rfl⟩, safe_prog hD rfl⟩
    intro key
    have hnew : earned key ⟨i, k, false, prog i k⟩ = 0 := earnedBy_prog i k key
    have hsum : total (cfg.spawn i k (prog i k)) key = total cfg key := by
      change ((Table.put Thread.id ⟨i, k, false, prog i k⟩ cfg.threads).map (earned key)).sum = _
      rw [Table.sum_put, hnew]
      change _ + 0 - ((cfg.thread i).map (earned key)).getD 0 = _
      rw [hfresh]
      simp [total]
    change (cfg.state.cents key : ℚ) = initial key + 100 * total (cfg.spawn i k (prog i k)) key
    rw [hsum]
    exact hJ key

/-- **No balance update is lost.** In every reachable configuration every stored
balance is the initial one plus the deltas of the `adjustBalance` calls that
have returned. -/
theorem no_lost_update {wallets : List Wallet} {cfg : RowConfig}
    (h : Reach server currentSaves (start wallets) cfg) (key : WalletKey) :
    (cfg.state.cents key : ℚ) =
      (start wallets).state.cents key + 100 * total cfg key := by
  have hbalanced := (walletRows_relyGuarantee (start wallets).state.cents).reach ?_ rfl h
  · exact hbalanced key
  · intro key
    change _ = _ + 100 * (([] : List RowThread).map (earned key)).sum
    simp

/-! ### Two schedules of an adjustment and a customization -/

/-- A wallet with 100.00 USD. -/
def hundred : List Wallet := [{ Wallet.create 1 "USD" with balance := 10000 }]

/-- The customization loads and re-reads the row while the adjustment is on its
way, and updates it afterwards. -/
def saveAcrossAdjust : List (Event WalletCall Err) :=
  [.call 0 (.adjustBalance 1 "USD" 25),
    .call 1 (.updateCustomization 1 "USD" (some "Savings") none),
    .step 0 none, .step 0 none, .step 0 none, .step 1 none, .step 1 none, .step 0 none,
    .step 1 none]

/-- The customization loads the row before the adjustment and saves it after. -/
def saveAfterAdjust : List (Event WalletCall Err) :=
  [.call 0 (.adjustBalance 1 "USD" 25),
    .call 1 (.updateCustomization 1 "USD" (some "Savings") none),
    .step 1 none, .step 0 none, .step 0 none, .step 0 none, .step 0 none, .step 1 none,
    .step 1 none]

/-- `currentSaves`, as a check. -/
def savesCurrent (cfg : RowConfig) (_ : RowThread) (c : RowCmd) (failed : Bool) : Bool :=
  match c with
  | .reread entity =>
    failed || decide ((cfg.state.row entity.key).map Wallet.balance = some entity.balance)
  | _ => true

theorem currentSaves_of_check {cfg : RowConfig} {th : RowThread} {c : RowCmd} {failed : Bool}
    (h : savesCurrent cfg th c failed = true) : currentSaves.onStep cfg th c failed := by
  rintro rfl entity rfl
  simpa [savesCurrent] using h

theorem no_lost_update_across : ∃ cfg : RowConfig,
    Reach server currentSaves (start hundred) cfg ∧
    cfg.threads.all (fun th => th.proc.returned.isSome) = true ∧
    cfg.state.cents (1, "USD") = 12500 ∧
    (cfg.state.cents (1, "USD") : ℚ) =
      (start hundred).state.cents (1, "USD") + 100 * total cfg (1, "USD") := by
  obtain ⟨cfg, hrun⟩ : ∃ cfg,
      server.runChecked savesCurrent (start hundred) saveAcrossAdjust = some cfg :=
    Option.isSome_iff_exists.mp (by decide +kernel)
  have hfinal : ((server.runChecked savesCurrent (start hundred) saveAcrossAdjust).map fun cfg =>
      (cfg.threads.all (fun th => th.proc.returned.isSome), cfg.state.cents (1, "USD"))) =
      some (true, 12500) := by decide +kernel
  rw [hrun] at hfinal
  simp only [Option.map_some, Option.some.injEq, Prod.mk.injEq] at hfinal
  have hreach : Reach server currentSaves (start hundred) cfg := by
    refine Reach.refl.of_runChecked ?_ (fun _ _ _ _ => currentSaves_of_check) hrun
    intro i k hmem _
    simp only [saveAcrossAdjust, List.mem_cons, reduceCtorEq, or_false,
      List.not_mem_nil] at hmem
    rcases hmem with h | h
    · cases h
      exact ⟨2500, by norm_num⟩
    · cases h
      trivial
  exact ⟨cfg, hreach, hfinal.1, hfinal.2, no_lost_update hreach (1, "USD")⟩

/-- Both calls return, and the adjustment by 25.00 is gone. -/
theorem update_lost : ∃ cfg : RowConfig,
    Reach server twoDecimals (start hundred) cfg ∧
    cfg.threads.all (fun th => th.proc.returned.isSome) = true ∧
    total cfg (1, "USD") = 25 ∧
    cfg.state.cents (1, "USD") = 10000 ∧ (start hundred).state.cents (1, "USD") = 10000 := by
  obtain ⟨cfg, hrun⟩ : ∃ cfg, server.run (start hundred) saveAfterAdjust = some cfg :=
    Option.isSome_iff_exists.mp (by decide +kernel)
  have hfinal : ((server.run (start hundred) saveAfterAdjust).map fun cfg =>
      (cfg.threads.all (fun th => th.proc.returned.isSome), total cfg (1, "USD"),
        cfg.state.cents (1, "USD"))) = some (true, 25, 10000) := by decide +kernel
  rw [hrun] at hfinal
  simp only [Option.map_some, Option.some.injEq, Prod.mk.injEq] at hfinal
  refine ⟨cfg, ?_, hfinal.1, hfinal.2.1, hfinal.2.2, rfl⟩
  refine Reach.refl.of_run ?_ (fun _ _ _ _ => trivial) hrun
  intro i k hmem _
  simp only [saveAfterAdjust, List.mem_cons, reduceCtorEq, or_false,
    List.not_mem_nil] at hmem
  rcases hmem with h | h
  · cases h
    exact ⟨2500, by norm_num⟩
  · cases h
    trivial

end WalletRows

end NexaFx
