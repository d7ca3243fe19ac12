import NexaFx.Model.Wallets

/-!
# NexaFx — ledger verification

`reconciliation/ledger-verification.service.ts`: every night the stored balance
of each wallet is compared with the sum of the COMPLETED transactions that its
account received in its currency. What an account sent, fees, and the second
currency of a swap are not part of that sum.
-/

namespace NexaFx

open Decimal

-- ---------------------------------------------------------------------------
-- The result of a verification
-- ---------------------------------------------------------------------------

/-- What is recorded of a wallet that does not add up. -/
structure Discrepancy where
  accountId : UserId
  currency : String
  stored : ℚ
  ledger : ℚ
  diff : ℚ
  deriving DecidableEq

/-- A row of `ledger_verification_results`. -/
structure LedgerVerificationResult where
  totalChecked : ℕ
  discrepancyCount : ℕ
  discrepancies : Option (List Discrepancy)
  deriving DecidableEq

def TOLERANCE : ℚ := 1 / 100

-- ---------------------------------------------------------------------------
-- The verification
-- ---------------------------------------------------------------------------

/-- `COALESCE(SUM(tx.amount), 0)` over the COMPLETED rows that the account
received in the currency. -/
def Db.ledgerBalance (db : Db) (accountId : UserId) (currency : String) : ℚ :=
  ((db.transactions.filter fun tx =>
    decide (tx.receiverId = accountId ∧ tx.currency = currency ∧ tx.status = .completed)).map
      Transaction.amount).sum

/-- The balance column as a decimal. -/
def Wallet.storedBalance (wallet : Wallet) : ℚ := wallet.balance / 100

/-- One turn of the loop over the wallets. -/
def Db.discrepancy (db : Db) (wallet : Wallet) : Option Discrepancy :=
  let ledgerBalance := db.ledgerBalance wallet.accountId wallet.currency
  let diff := |ledgerBalance - wallet.storedBalance|
  if TOLERANCE < diff then
    some
      { accountId := wallet.accountId
        currency := wallet.currency
        stored := toFixed 8 wallet.storedBalance
        ledger := toFixed 8 ledgerBalance
        diff := toFixed 8 diff }
  else none

/-- `LedgerVerificationService.verify`. -/
def Db.verify (db : Db) : LedgerVerificationResult :=
  let discrepancies := db.wallets.filterMap db.discrepancy
  { totalChecked := db.wallets.length
    discrepancyCount := discrepancies.length
    discrepancies := if 0 < discrepancies.length then some discrepancies else none }

/-- Nothing is reported exactly when every wallet is within the tolerance. -/
theorem verify_clean_iff (db : Db) :
    db.verify.discrepancyCount = 0 ↔ ∀ wallet ∈ db.wallets,
      |db.ledgerBalance wallet.accountId wallet.currency - wallet.storedBalance| ≤ TOLERANCE := by
  show (db.wallets.filterMap db.discrepancy).length = 0 ↔ _
  rw [List.length_eq_zero_iff, List.filterMap_eq_nil_iff]
  refine forall₂_congr fun wallet _ => ?_
  unfold Db.discrepancy
  simp only
  split
  · rename_i hover
    simp [hover]
  · rename_i hwithin
    simpa using hwithin

end NexaFx
