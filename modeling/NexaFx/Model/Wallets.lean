import NexaFx.Model.Database

/-!
# NexaFx — wallet balances

`wallet/wallets.service.ts` as the other services see it: `adjustBalance`
opens, commits and rolls back a database transaction of its own
(`withTransaction`) under the row's write lock, so to its caller it is one
atomic step. How its parts interleave with writers that take no lock is the
subject of `Model.WalletRows`.

The new balance is the old one plus `delta`, rounded to two decimals with ties
away from zero, and refused below zero. What an accepted change adds to the
stored balance does not depend on that balance (`adjustBalance_cents`): it is
`shift (100 * delta)` hundredths.
-/

namespace NexaFx

open Decimal

namespace Db

/-- `WalletsService.getBalance`, in hundredths. -/
def getBalance (db : Db) (accountId : UserId) (currency : String) : Except Err ℤ :=
  match validateCurrency currency with
  | .error e => .error e
  | .ok normalizedCurrency => .ok (db.cents accountId normalizedCurrency)

/-- `Number(new Big(wallet.balance).plus(new Big(delta)).toFixed(2))`, in
hundredths. -/
def newBalance (balance : ℤ) (delta : ℚ) : ℤ := roundHalfAway (balance + 100 * delta)

/-- `wallet.balance = newBalance; save(wallet)`, and the change is logged. -/
def moveBalance (db : Db) (call : ℕ) (tx : TxId) (wallet : Wallet) (balance : ℤ) : Db :=
  { db with
    wallets := Table.put Wallet.key { wallet with balance := balance } db.wallets
    moves := db.moves ++
      [⟨call, tx, wallet.accountId, wallet.currency, balance - wallet.balance⟩] }

/-- `WalletsService.adjustBalance`, made by `call` for the transaction `tx`. -/
def adjustBalance (db : Db) (call : ℕ) (tx : TxId) (accountId : UserId) (currency : String)
    (delta : ℚ) : Except Err (ℤ × Db) :=
  match validateCurrency currency with
  | .error e => .error e
  | .ok normalizedCurrency =>
    if delta = 0 then .ok (db.cents accountId normalizedCurrency, db)
    else
      let wallet := (db.wallet accountId normalizedCurrency).getD
        (.create accountId normalizedCurrency)
      let balance := newBalance wallet.balance delta
      if balance < 0 then .error (.badRequest "Insufficient balance")
      else .ok (balance, db.moveBalance call tx wallet balance)

/-! ## Lemmas -/

theorem wallet_key {db : Db} {a : UserId} {c : String} {w : Wallet}
    (h : db.wallet a c = some w) : w.accountId = a ∧ w.currency = c := by
  have := Table.key_of_get _ h
  simpa [Wallet.key] using this

/-- The wallet a balance change starts from holds the stored balance, whether
or not it exists. -/
theorem getD_create_balance (db : Db) (a : UserId) (c : String) :
    ((db.wallet a c).getD (.create a c)).balance = db.cents a c := by
  unfold cents
  cases db.wallet a c <;> rfl

theorem getD_create_key (db : Db) (a : UserId) (c : String) :
    ((db.wallet a c).getD (.create a c)).accountId = a ∧
    ((db.wallet a c).getD (.create a c)).currency = c := by
  cases h : db.wallet a c with
  | none => exact ⟨rfl, rfl⟩
  | some w => exact wallet_key h

theorem cents_moveBalance (db : Db) (call : ℕ) (tx : TxId) (w : Wallet) (b : ℤ)
    (a : UserId) (c : String) :
    (db.moveBalance call tx w b).cents a c =
      if w.accountId = a ∧ w.currency = c then b else db.cents a c := by
  unfold cents wallet moveBalance
  rw [Table.get_put]
  simp only [Wallet.key, Prod.mk.injEq]
  split <;> simp

/-- The balance covers a change by `delta`: the new balance does not round
below zero. -/
def Covers (db : Db) (accountId : UserId) (currency : String) (delta : ℚ) : Prop :=
  delta = 0 ∨ -(1 / 2) < (db.cents accountId (normalizeCurrencyCode currency) : ℚ) + 100 * delta

instance (db : Db) (a : UserId) (c : String) (delta : ℚ) : Decidable (db.Covers a c delta) :=
  inferInstanceAs (Decidable (_ ∨ _))

/-- What an accepted balance change does: nothing but a logged move, by the
shift of `delta`, on the wallet it names. -/
structure Adjusted (db : Db) (call : ℕ) (tx : TxId) (accountId : UserId) (currency : String)
    (delta : ℚ) (db' : Db) : Prop where
  supported : validateCurrency currency = .ok (normalizeCurrencyCode currency)
  covered : db.Covers accountId currency delta
  rest : ∃ ws ms, db' = { db with wallets := ws, moves := ms }
  moves : db'.moves = db.moves ++
    if delta = 0 then [] else
      [⟨call, tx, accountId, normalizeCurrencyCode currency, shift (100 * delta)⟩]
  cents : ∀ a c, db'.cents a c = db.cents a c +
    if accountId = a ∧ normalizeCurrencyCode currency = c then shift (100 * delta) else 0

theorem shift_zero : shift (100 * 0) = 0 := by
  have := shift_intCast 0
  simpa using this

/-- **Spec of `adjustBalance`.** -/
theorem adjustBalance_ok {db db' : Db} {call : ℕ} {tx : TxId} {accountId : UserId}
    {currency : String} {delta : ℚ} {b : ℤ}
    (h : db.adjustBalance call tx accountId currency delta = .ok (b, db')) :
    db.Adjusted call tx accountId currency delta db' := by
  unfold adjustBalance at h
  cases hcur : validateCurrency currency with
  | error e =>
    rw [hcur] at h
    cases h
  | ok cur =>
    obtain rfl := validateCurrency_ok hcur
    simp only [hcur, getD_create_balance] at h
    by_cases hzero : delta = 0
    · subst hzero
      rw [if_pos rfl] at h
      cases h
      refine ⟨hcur, Or.inl rfl, ⟨_, _, rfl⟩, by simp, ?_⟩
      intro a c
      rw [shift_zero, ite_self, add_zero]
    · rw [if_neg hzero] at h
      split at h
      · cases h
      · rename_i hnonneg
        cases h
        have hnn : 0 ≤ roundHalfAway
            (db.cents accountId (normalizeCurrencyCode currency) + 100 * delta) :=
          not_lt.mp hnonneg
        have hnew := roundHalfAway_add hnn
        obtain ⟨hacc, hcurr⟩ := getD_create_key db accountId (normalizeCurrencyCode currency)
        refine ⟨hcur, Or.inr (roundHalfAway_nonneg.mp hnn), ⟨_, _, rfl⟩, ?_, ?_⟩
        · rw [moveBalance, if_neg hzero, hacc, hcurr, getD_create_balance, newBalance, hnew,
            add_sub_cancel_left]
        · intro a c
          rw [cents_moveBalance, hacc, hcurr, newBalance, hnew]
          split
          · rename_i hac
            rw [hac.1, hac.2]
          · rw [add_zero]

/-- A balance change is accepted exactly when the currency is supported and
the balance covers it. -/
theorem adjustBalance_accepts {db : Db} (call : ℕ) (tx : TxId) {accountId : UserId}
    {currency : String} {delta : ℚ}
    (hcur : validateCurrency currency = .ok (normalizeCurrencyCode currency))
    (hcov : db.Covers accountId currency delta) :
    ∃ b db', db.adjustBalance call tx accountId currency delta = .ok (b, db') := by
  unfold adjustBalance
  simp only [hcur, getD_create_balance]
  by_cases hzero : delta = 0
  · rw [if_pos hzero]
    exact ⟨_, _, rfl⟩
  · rw [if_neg hzero]
    have hnn : ¬ newBalance (db.cents accountId (normalizeCurrencyCode currency)) delta < 0 :=
      not_lt.mpr (roundHalfAway_nonneg.mpr (hcov.resolve_left hzero))
    rw [if_neg hnn]
    exact ⟨_, _, rfl⟩

/-- Moves logged in the name of someone else do not count. -/
theorem Adjusted.net {db db' : Db} {call : ℕ} {tx : TxId} {accountId : UserId}
    {currency : String} {delta : ℚ} (h : db.Adjusted call tx accountId currency delta db')
    (p : Move → Bool) (a : UserId) (c : String) :
    db'.net p a c = db.net p a c +
      if p ⟨call, tx, accountId, normalizeCurrencyCode currency, shift (100 * delta)⟩ = true ∧
        accountId = a ∧ normalizeCurrencyCode currency = c then shift (100 * delta) else 0 := by
  rw [Db.net, h.moves, Move.net_append, ← Db.net]
  congr 1
  by_cases hzero : delta = 0
  · subst hzero
    rw [if_pos rfl, shift_zero, ite_self]
    rfl
  · rw [if_neg hzero, Move.net_singleton]

theorem Adjusted.netOf {db db' : Db} {call : ℕ} {tx : TxId} {accountId : UserId}
    {currency : String} {delta : ℚ} (h : db.Adjusted call tx accountId currency delta db')
    (i : ℕ) (a : UserId) (c : String) :
    db'.netOf i a c = db.netOf i a c +
      if call = i ∧ accountId = a ∧ normalizeCurrencyCode currency = c
      then shift (100 * delta) else 0 := by
  rw [Db.netOf, h.net]
  simp [Db.netOf]

theorem Adjusted.transactions {db db' : Db} {call : ℕ} {tx : TxId} {accountId : UserId}
    {currency : String} {delta : ℚ} (h : db.Adjusted call tx accountId currency delta db') :
    db'.transactions = db.transactions := by
  obtain ⟨ws, ms, rfl⟩ := h.rest
  rfl

theorem Adjusted.userExists {db db' : Db} {call : ℕ} {tx : TxId} {accountId : UserId}
    {currency : String} {delta : ℚ} (h : db.Adjusted call tx accountId currency delta db') :
    db'.userExists = db.userExists := by
  obtain ⟨ws, ms, rfl⟩ := h.rest
  rfl

end Db

end NexaFx
