import NexaFx.Model.Ledger
import NexaFx.Safety.Books

/-!
# NexaFx — ledger verification after any history

`verify` adds up what accounts received and compares it with their wallets,
which also pay. After a sequence of calls it reports nothing as long as every
call moves exactly what the verification counts of its row (`verify_clean`);
the first transfer that completes is reported for its sender.
-/

namespace NexaFx

open Async Decimal Proc

-- ---------------------------------------------------------------------------
-- The rule of the verification
-- ---------------------------------------------------------------------------

/-- A COMPLETED row counts for its receiver. -/
def ledgerRule : Rule := fun e a c =>
  if e.completed = true ∧ e.receiver = a ∧ e.currency = c then 100 * e.amount else 0

theorem counted_ledgerRule (db : Db) (a : UserId) (c : String) :
    db.counted ledgerRule a c = 100 * db.ledgerBalance a c := by
  unfold Db.counted Db.ledgerBalance
  induction db.transactions with
  | nil => simp
  | cons tx txs ih =>
    rw [List.map_cons, List.sum_cons, ih, ledgerRule, List.filter_cons]
    by_cases htx : tx.receiverId = a ∧ tx.currency = c ∧ tx.status = .completed
    · obtain ⟨hreceiver, hcurrency, hstatus⟩ := htx
      simp [Transaction.entry, hreceiver, hcurrency, hstatus]
      ring
    · have hcounts : ¬ (tx.entry.completed = true ∧ tx.entry.receiver = a ∧ tx.entry.currency = c) := by
        rintro ⟨hstatus, hreceiver, hcurrency⟩
        exact htx ⟨hreceiver, hcurrency, of_decide_eq_true hstatus⟩
      rw [if_neg hcounts, if_neg (by simpa using htx), zero_add]

-- ---------------------------------------------------------------------------
-- The wallets table
-- ---------------------------------------------------------------------------

/-- One wallet a user and currency, in a supported currency in upper case. -/
structure WalletsKept (db : Db) : Prop where
  unique : (db.wallets.map Wallet.key).Nodup
  canonical : ∀ wallet ∈ db.wallets, Canonical wallet.currency

theorem canonical_of_supported {currency : String}
    (h : validateCurrency currency = .ok (normalizeCurrencyCode currency)) :
    Canonical (normalizeCurrencyCode currency) := by
  have hsupported : isSupportedCurrency (normalizeCurrencyCode currency) = true := by
    by_contra hno
    rw [validateCurrency, if_neg hno] at h
    simp at h
  rw [Canonical, validateCurrency, normalizeCurrencyCode_idem, if_pos hsupported]

/-- A balance change writes one wallet, in the currency it was asked for. -/
theorem adjustBalance_wallets {db db' : Db} {call : ℕ} {tx : TxId} {a : UserId} {c : String}
    {delta : ℚ} {b : ℤ} (h : db.adjustBalance call tx a c delta = .ok (b, db')) :
    db'.wallets = db.wallets ∨ ∃ wallet, db'.wallets = Table.put Wallet.key wallet db.wallets ∧
      Canonical wallet.currency := by
  have hsupported := (Db.adjustBalance_ok h).supported
  have hcurrency := (Db.getD_create_key db a (normalizeCurrencyCode c)).2
  unfold Db.adjustBalance at h
  simp only [hsupported] at h
  split at h
  · cases h
    exact Or.inl rfl
  · split at h
    · cases h
    · cases h
      refine Or.inr ⟨_, rfl, ?_⟩
      show Canonical ((db.wallet a (normalizeCurrencyCode c)).getD _).currency
      rw [hcurrency]
      exact canonical_of_supported hsupported

theorem WalletsKept.step {c : Cmd} {db db' : Db} {r : c.Reply} (hexec : exec c db = .ok (r, db'))
    (h : WalletsKept db) : WalletsKept db' := by
  have hwrite : ∀ {db' : Db}, (db'.wallets = db.wallets ∨
      ∃ wallet, db'.wallets = Table.put Wallet.key wallet db.wallets ∧
        Canonical wallet.currency) → WalletsKept db' := by
    rintro db' (hsame | ⟨wallet, hput, hcanonical⟩)
    · exact ⟨hsame ▸ h.unique, hsame ▸ h.canonical⟩
    · refine ⟨hput ▸ Table.nodup_put _ h.unique, ?_⟩
      rw [hput]
      intro w hw
      rcases Table.mem_put _ hw with rfl | hold
      · exact hcanonical
      · exact h.canonical w hold
  rcases exec_cases hexec with ⟨-, hunt⟩ | ⟨rows, -, hcommit⟩ | ⟨_, _, _, _, _, _, rfl, -⟩
  · exact hwrite (Or.inl hunt.wallets)
  · obtain ⟨ts, hts⟩ := Db.foldl_putTransaction db rows
    refine hwrite (Or.inl ?_)
    rw [Db.commit_ok hcommit, hts]
  · rw [exec_adjustBalance] at hexec
    exact hwrite (adjustBalance_wallets hexec)

/-- The stored row is the one that is looked up. -/
theorem WalletsKept.cents {db : Db} (h : WalletsKept db) {wallet : Wallet}
    (hw : wallet ∈ db.wallets) : db.cents wallet.accountId wallet.currency = wallet.balance := by
  have hget : db.wallet wallet.accountId wallet.currency = some wallet :=
    Table.get_of_mem Wallet.key h.unique hw
  rw [Db.cents, hget]
  rfl

-- ---------------------------------------------------------------------------
-- The result
-- ---------------------------------------------------------------------------

/-- The calls of the histories that are verified. -/
def Call.verified : Call → Bool
  | .transfer _ | .deposit _ | .withdrawal _ | .swap _ | .reverse _ _ => true
  | .cancel _ | .reconcile | .tick _ => false

/-- No wallet and no transaction yet. -/
structure Unused (db : Db) : Prop where
  wallets : db.wallets = []
  transactions : db.transactions = []

theorem Unused.level {db : Db} (h : Unused db) (rule : Rule) : Level (db.drift rule) := by
  intro a c _
  rw [Db.drift, Db.counted, h.transactions, Db.cents, Db.wallet, h.wallets]
  simp

/-- **No false alarm.** After any sequence of fault-free calls that do not overlap
and each move what the verification counts of them, `verify` reports nothing. -/
theorem verify_clean {db₀ db : Db} (h₀ : Unused db₀)
    (h : BookedRuns ledgerRule (fun _ => false) Call.verified db₀ db) :
    db.verify.discrepancyCount = 0 := by
  have hlevel := level_reach (by simp)
    (fun k hk => by cases k <;> first | rfl | cases hk) (h₀.level ledgerRule) h
  have hkept : WalletsKept db := by
    refine h.keeps (I := WalletsKept) ?_ ?_ fun c s a s' hexec hs => hs.step hexec
    · refine ⟨by simp [h₀.wallets], ?_⟩
      rw [h₀.wallets]
      simp
    · rintro s s' ⟨ms, rfl⟩ hs
      exact ⟨hs.unique, hs.canonical⟩
  rw [verify_clean_iff]
  intro wallet hw
  have hzero := hlevel wallet.accountId wallet.currency (hkept.canonical wallet hw)
  rw [Db.drift, hkept.cents hw, counted_ledgerRule] at hzero
  have hsame : db.ledgerBalance wallet.accountId wallet.currency = wallet.storedBalance := by
    rw [Wallet.storedBalance]
    linarith
  rw [hsame, sub_self, abs_zero, TOLERANCE]
  norm_num

/-- User 1 deposits 100.00 USD. -/
def hundredIn : DepositDto where
  userId := 1
  amount := 100
  currency := "USD"
  reference := "d-1"

/-- The new deployment after that deposit. -/
def afterDeposit : Db := ((prog 0 (.deposit hundredIn)).run exec noFault (.deployed [])).2

/-- A deposit without a fault may end only where it is complete. -/
theorem DepositDto.balances_of_completed {rule : Rule} {dto : DepositDto}
    (h : Matches rule dto.credit dto.entry.done) (c : Cmd) : dto.Balances rule c false := by
  cases c with
  | invalidateWalletBalanceCache => exact h
  | saveTransaction site => cases site <;> trivial
  | adjustBalance site => cases site <;> trivial
  | _ => trivial

theorem matches_hundredIn : Matches ledgerRule hundredIn.credit hundredIn.entry.done := by
  intro a c _
  have hcents : shift (100 * 100) = 10000 := by norm_num [shift]
  unfold ledgerRule DepositDto.credit moved
  simp only [hundredIn, DepositDto.entry, Entry.done, usd_normalized, hcents, true_and]
  split
  · norm_num
  · rfl

theorem fresh_start (i : ℕ) : Fresh (.deployed []) i :=
  fresh_of_moves rfl rfl fun _ hm => by cases hm

theorem verify_clean_deposit : afterDeposit.verify.discrepancyCount = 0 := by
  have hends : (prog 0 (.deposit hundredIn)).Ends (services fun _ => false)
      ((Call.deposit hundredIn).Balances ledgerRule 0) (.deployed [])
      ((prog 0 (.deposit hundredIn)).run exec noFault (.deployed [])).1 afterDeposit := by
    refine ends_of_checks (fun _ => Or.inl rfl)
      (fun c failed _ (hok : (!failed) = true) => ?_) (by decide +kernel)
    obtain rfl : failed = false := by simpa using hok
    exact DepositDto.balances_of_completed matches_hundredIn c
  exact verify_clean ⟨rfl, rfl⟩ (.call .start 0 (.deposit hundredIn) ⟨rfl, fresh_start 0⟩ hends)

/-- The transfer of 60.00 of the 100.00 USD is in no sum that takes them away
from the sender. -/
theorem verify_alarms :
    ∃ db, Histories (fun _ => false) Call.verified (.deployed []) db ∧
      db.verify.discrepancyCount = 1 := by
  refine ⟨((prog 1 (.transfer sixtyDollars)).run exec noFault afterDeposit).2, ?_, ?_⟩
  · have hfirst : Histories (fun _ => false) Call.verified (.deployed []) afterDeposit :=
      Histories.run (.start) rfl (fresh_start 0)
    have hmoves : afterDeposit.moves = [⟨0, 0, 1, "USD", 10000⟩] := by decide +kernel
    exact hfirst.run rfl (fresh_of_moves (by decide +kernel) hmoves (by simp))
  · decide +kernel

end NexaFx
