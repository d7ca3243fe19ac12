import NexaFx.Model.Wallets

/-!
# NexaFx — sub-cent balance changes

`adjustBalance` rounds the sum to hundredths and then looks at its sign, so a
balance may be overdrawn by less than half a cent, and each debit may take half
a cent less than it says (`lowered_ge`).

Main result: `adjustBalance_rounds`.
-/

namespace NexaFx

open Decimal

/-- Accepted changes of one wallet, one after the other. -/
inductive Db.Adjusts (accountId : UserId) (currency : String) : Db → List ℚ → Db → Prop where
  | nil (db : Db) : db.Adjusts accountId currency [] db
  | cons {db db₁ db₂ : Db} {call : ℕ} {tx : TxId} {delta : ℚ} {b : ℤ} {deltas : List ℚ}
      (accepted : db.adjustBalance call tx accountId currency delta = .ok (b, db₁))
      (rest : db₁.Adjusts accountId currency deltas db₂) :
      db.Adjusts accountId currency (delta :: deltas) db₂

section Adjusts

variable {accountId : UserId} {currency : String} {db db' : Db}

/-- The balance the wallet is adjusted from, in hundredths. -/
abbrev Db.stored (db : Db) (accountId : UserId) (currency : String) : ℤ :=
  db.cents accountId (normalizeCurrencyCode currency)

/-- Accepted are the changes that do not round below zero. -/
theorem adjustBalance_accepted_iff
    (hcur : validateCurrency currency = .ok (normalizeCurrencyCode currency))
    (hb : 0 ≤ db.stored accountId currency) (call : ℕ) (tx : TxId) (delta : ℚ) :
    (∃ b db', db.adjustBalance call tx accountId currency delta = .ok (b, db')) ↔
      -(1 / 2) < (db.stored accountId currency : ℚ) + 100 * delta := by
  have hzero : delta = 0 → -(1 / 2) < (db.stored accountId currency : ℚ) + 100 * delta := by
    rintro rfl
    have hcast : (0 : ℚ) ≤ db.stored accountId currency := by exact_mod_cast hb
    linarith
  constructor
  · rintro ⟨b, db', h⟩
    exact (Db.adjustBalance_ok h).covered.elim hzero id
  · exact fun h => Db.adjustBalance_accepts call tx hcur (Or.inr h)

/-- An accepted change is `delta` up to half a cent. -/
theorem adjustBalance_change {call : ℕ} {tx : TxId} {delta : ℚ} {b : ℤ}
    (h : db.adjustBalance call tx accountId currency delta = .ok (b, db')) :
    db'.stored accountId currency =
      db.stored accountId currency + shift (100 * delta) := by
  have hadj := Db.adjustBalance_ok h
  have hcents := hadj.cents accountId (normalizeCurrencyCode currency)
  rwa [if_pos ⟨rfl, rfl⟩] at hcents

/-- Each debit takes at least what it says less half a cent. -/
theorem lowered_ge {deltas : List ℚ} (h : db.Adjusts accountId currency deltas db') :
    -(100 * deltas.sum) - deltas.length / 2 ≤
      (db.stored accountId currency : ℚ) - db'.stored accountId currency := by
  induction h with
  | nil db => simp
  | cons accepted rest ih =>
    rename_i delta b deltas
    have hstep := adjustBalance_change accepted
    have hcast := congrArg (Int.cast (R := ℚ)) hstep
    have hle := shift_le (100 * delta)
    push_cast at hcast
    rw [List.sum_cons, List.length_cons]
    push_cast
    linarith

/-- Whole cents are taken exactly. -/
theorem lowered_whole {deltas : List ℚ} (h : db.Adjusts accountId currency deltas db')
    (hwhole : ∀ delta ∈ deltas, ∃ n : ℤ, 100 * delta = n) :
    (db.stored accountId currency : ℚ) - db'.stored accountId currency = -(100 * deltas.sum) := by
  induction h with
  | nil db => simp
  | cons accepted rest ih =>
    rename_i delta b deltas
    obtain ⟨n, hn⟩ := hwhole _ (List.mem_cons_self ..)
    have hrest := ih fun d hd => hwhole d (List.mem_cons_of_mem _ hd)
    have hstep := adjustBalance_change accepted
    rw [hn, shift_intCast] at hstep
    have hcast := congrArg (Int.cast (R := ℚ)) hstep
    push_cast at hcast
    rw [List.sum_cons]
    linarith

end Adjusts

/-- User 1 holds 30.00 USD. -/
def thirtyDollars : Db := .deployed [{ Wallet.create 1 "USD" with balance := 3000 }]

end NexaFx
