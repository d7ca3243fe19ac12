import NexaFx.Lib.Atomic
import NexaFx.Safety.Conservation

/-!
# NexaFx — as if the calls came one after the other

Calls that pay before they receive: transfers, deposits, and withdrawals and
swaps of amounts that are not negative, besides the calls that move nothing.
They are interleaved at every await, with any of the awaits failing.

* `moves_serializable` — the wallets hold what they would if the calls had moved
  their money one after the other, each all of it at once, in the order in which
  they first moved any; no wallet is overdrawn in that order either, and it is
  only ever extended.

A reversal is not such a call: it credits the sender before it debits the
receiver, and what it credits can be spent before the debit is refused.
-/

namespace NexaFx

open Async Decimal Proc Reordering

-- ---------------------------------------------------------------------------
-- Wallets as accounts
-- ---------------------------------------------------------------------------

/-- What a move does to a wallet. -/
def Move.change (m : Move) (w : UserId × String) : ℤ :=
  if m.account = w.1 ∧ m.currency = w.2 then m.cents else 0

/-- What is in each wallet. -/
def Db.balances (db : Db) (w : UserId × String) : ℤ := db.cents w.1 w.2

/-- Whatever the call takes, it takes first. -/
def Call.paysFirst : Call → Prop
  | .withdrawal dto => 0 ≤ dto.amount
  | .swap dto => 0 ≤ dto.fromAmount ∧ 0 ≤ dto.toAmount
  | .reverse _ _ => False
  | _ => True

def payingFirst : Discipline Call Cmd Cmd.Reply Err Db (Option Transaction) where
  onCall _ _ k := k.paysFirst
  onStep _ _ _ _ := True

section Scripts

variable {i : ℕ} {tx : TxId} {a : UserId} {currency : String} {delta : ℚ}

theorem totalChecked_nonneg {amount : ℚ} (h : 0 ≤ amount) : 0 ≤ totalChecked amount := by
  have hfee : 0 ≤ calculateFee amount := by
    have hround : 0 ≤ roundHalfAway (amount * FEE_RATE * 10 ^ 8) := by
      refine roundHalfAway_nonneg.mpr ?_
      have hproduct : 0 ≤ amount * FEE_RATE * 10 ^ 8 := by
        unfold FEE_RATE
        positivity
      linarith
    unfold calculateFee toFixed
    positivity
  exact add_nonneg h hfee

theorem length_entry_le (i : ℕ) (tx : TxId) (a : UserId) (currency : String) (delta : ℚ) :
    (Move.entry i tx a currency delta).length ≤ 1 := by
  unfold Move.entry
  split
  · exact Nat.zero_le 1
  · exact le_refl 1

theorem total_entry (i : ℕ) (tx : TxId) (a : UserId) (currency : String) (delta : ℚ)
    (w : UserId × String) : total Move.change (Move.entry i tx a currency delta) w =
      if a = w.1 ∧ normalizeCurrencyCode currency = w.2 then shift (100 * delta) else 0 := by
  unfold Move.entry
  by_cases hzero : delta = 0
  · rw [if_pos hzero, hzero, Db.shift_zero, ite_self, total_nil]
  · rw [if_neg hzero, total_cons, total_nil, add_zero, Move.change]

/-- A change by an amount that is not negative is a credit. -/
theorem credit_of_entry {m : Move} (h : 0 ≤ delta) (hm : m ∈ Move.entry i tx a currency delta)
    (w : UserId × String) : 0 ≤ m.change w := by
  unfold Move.entry at hm
  split at hm
  · cases hm
  · obtain rfl := List.mem_singleton.mp hm
    unfold Move.change
    split
    · exact shift_nonneg (by positivity)
    · exact le_refl 0

theorem credit_of_entries {m : Move} {n : ℕ} (h : 0 ≤ delta)
    (hm : m ∈ (List.replicate n (Move.entry i tx a currency delta)).flatten)
    (w : UserId × String) : 0 ≤ m.change w := by
  obtain ⟨entry, hentry, hm⟩ := List.mem_flatten.mp hm
  obtain ⟨-, rfl⟩ := List.mem_replicate.mp hentry
  exact credit_of_entry h hm w

/-- Behind the first move of a script there are credits only. -/
theorem credits_of_script {P : Move → Prop} {debit credits ms : List Move}
    (hdebit : debit.length ≤ 1) (hcredits : ∀ m ∈ credits, P m) (h : ms <+: debit ++ credits) :
    ∀ m ∈ ms.tail, P m := by
  intro m hm
  cases debit with
  | nil => exact hcredits m (h.subset (List.mem_of_mem_tail hm))
  | cons d rest =>
    obtain rfl : rest = [] := by
      rw [List.length_cons] at hdebit
      exact List.length_eq_zero_iff.mp (by omega)
    cases ms with
    | nil => cases hm
    | cons m' ms => exact hcredits m ((List.cons_prefix_cons.mp h).2.subset hm)

/-- **A call that pays first.** -/
theorem Call.Moved.credits {k : Call} {ms : List Move} (hk : k.paysFirst) (h : k.Moved i ms) :
    ∀ m ∈ ms.tail, ∀ w, 0 ≤ m.change w := by
  cases k with
  | transfer dto =>
    rcases eq_or_ne ms [] with rfl | hmoved
    · exact fun m hm => by cases hm
    · exact credits_of_script (length_entry_le ..)
        (fun m hm => credit_of_entry (h.2 hmoved).le hm) h.1
  | deposit dto =>
    have hscript : ms <+: Move.entry i i dto.userId dto.currency dto.amount ++ [] := by
      rw [List.append_nil]
      exact h
    exact credits_of_script (length_entry_le ..) (fun m hm => by cases hm) hscript
  | withdrawal dto =>
    exact credits_of_script (length_entry_le ..)
      (fun m hm => credit_of_entry (totalChecked_nonneg hk) hm) h
  | swap dto =>
    rcases h with rfl | ⟨n, -, rfl | rfl⟩
    · exact fun m hm => by cases hm
    · exact credits_of_script (length_entry_le ..) (fun m hm => credit_of_entries hk.2 hm)
        (List.prefix_refl _)
    · rw [SwapDto.script, List.append_assoc]
      refine credits_of_script (length_entry_le ..) (fun m hm => ?_) (List.prefix_refl _)
      rcases List.mem_append.mp hm with hm | hm
      · exact credit_of_entries hk.2 hm
      · exact credit_of_entry (totalChecked_nonneg hk.1) hm
  | reverse id input => exact hk.elim
  | cancel | reconcile | tick =>
    obtain rfl : ms = [] := h
    exact fun m hm => by cases hm

end Scripts

-- ---------------------------------------------------------------------------
-- The log
-- ---------------------------------------------------------------------------

/-- The log accounts for what the wallets hold, and no wallet was ever overdrawn. -/
structure Backed (db₀ db : Db) : Prop where
  solvent : Solvent Move.change db₀.balances db.moves
  balances : ∀ w, db.balances w = db₀.balances w + total Move.change db.moves w

section Log

variable {db₀ db db' : Db}

/-- What is accepted leaves a balance that is not negative. -/
theorem balances_nonneg_of_adjusted {call : ℕ} {tx : TxId} {a : UserId} {currency : String}
    {delta : ℚ} (h : db.Adjusted call tx a currency delta db') (hdb : ∀ w, 0 ≤ db.balances w)
    (w : UserId × String) : 0 ≤ db'.balances w := by
  show 0 ≤ db'.cents w.1 w.2
  rw [h.cents]
  split
  · rename_i hw
    rw [← hw.1, ← hw.2]
    rcases h.covered with rfl | hcovered
    · rw [Db.shift_zero, add_zero]
      exact hdb (a, normalizeCurrencyCode currency)
    · have hround := roundHalfAway_nonneg.mpr hcovered
      rwa [roundHalfAway_add hround] at hround
  · rw [add_zero]
    exact hdb w

/-- **Step lemma.** -/
theorem Backed.step (h : Backed db₀ db) {c : Cmd} {a : c.Reply}
    (hexec : exec c db = .ok (a, db')) : Backed db₀ db' := by
  rcases mover_cases c with hmover | ⟨site, call, tx, acc, currency, delta, rfl⟩
  · obtain ⟨hwallets, hmoves⟩ := exec_wallets hexec hmover
    refine ⟨by rw [hmoves]; exact h.solvent, fun w => ?_⟩
    rw [hmoves, ← h.balances, Db.balances, Db.cents, Db.wallet, hwallets]
    rfl
  · have hadj := exec_adjustBalance_ok hexec
    have hmoves : db'.moves = db.moves ++ Move.entry call tx acc currency delta := hadj.moves
    have hbalances : ∀ w, db'.balances w = db₀.balances w + total Move.change db'.moves w := by
      intro w
      rw [hmoves, total_append, ← add_assoc, ← h.balances, total_entry]
      exact hadj.cents w.1 w.2
    refine ⟨?_, hbalances⟩
    have hnonneg : ∀ w, 0 ≤ db.balances w := fun w => by
      rw [h.balances]
      exact h.solvent _ (List.prefix_refl _) w
    cases hentry : Move.entry call tx acc currency delta with
    | nil =>
      rw [hmoves, hentry, List.append_nil]
      exact h.solvent
    | cons m rest =>
      have hlength := length_entry_le call tx acc currency delta
      rw [hentry, List.length_cons] at hlength
      obtain rfl : rest = [] := List.length_eq_zero_iff.mp (by omega)
      rw [hmoves, hentry] at hbalances ⊢
      refine h.solvent.concat fun w => ?_
      rw [← hbalances]
      exact balances_nonneg_of_adjusted hadj hnonneg w

/-- The log is only ever extended. -/
theorem exec_moves_isPrefix {c : Cmd} {a : c.Reply} (h : exec c db = .ok (a, db')) :
    db.moves <+: db'.moves := by
  rcases mover_cases c with hmover | ⟨site, call, tx, acc, currency, delta, rfl⟩
  · rw [(exec_wallets h hmover).2]
  · rw [(exec_adjustBalance_ok h).moves]
    exact List.prefix_append _ _

end Log

-- ---------------------------------------------------------------------------
-- All calls
-- ---------------------------------------------------------------------------

section Runs

variable {D : Discipline Call Cmd Cmd.Reply Err Db (Option Transaction)} {db : Db}
  {cfg cfg' : ServerConfig}

theorem backed_reach (hmoves : db.moves = []) (hfunds : ∀ a c, 0 ≤ db.cents a c)
    (h : Reach server D (start db) cfg) : Backed db cfg.state := by
  refine Reach.invariant (I := fun cfg : ServerConfig => Backed db cfg.state) ?_ ?_ ?_ h
  · refine ⟨?_, fun w => ?_⟩
    · show Solvent Move.change db.balances db.moves
      rw [hmoves]
      intro p hp w
      rw [List.prefix_nil.mp hp, total_nil, add_zero]
      exact hfunds w.1 w.2
    · show db.balances w = db.balances w + total Move.change db.moves w
      rw [hmoves, total_nil, add_zero]
  · intro cfg i k hI _ _
    exact hI
  · intro cfg i fault th c next hI _ _ _ _ _
    rw [Config.resume_state]
    cases hres : outcome fault (server.exec c cfg.state) with
    | error e => exact hI
    | ok r => exact hI.step (outcome_eq_ok hres).2

theorem moves_isPrefix (h : Reach server D cfg cfg') : cfg.state.moves <+: cfg'.state.moves := by
  refine Reach.invariant (I := fun cfg' : ServerConfig => cfg.state.moves <+: cfg'.state.moves)
    (List.prefix_refl _) (fun _ _ _ hI _ _ => hI) ?_ h
  intro cfg' i fault th c next hI _ _ _ _ _
  rw [Config.resume_state]
  cases hres : outcome fault (server.exec c cfg'.state) with
  | error e => exact hI
  | ok r => exact hI.trans (exec_moves_isPrefix (outcome_eq_ok hres).2)

/-- **Serializability.** -/
theorem moves_serializable (hmoves : db.moves = []) (hfunds : ∀ a c, 0 ≤ db.cents a c)
    (h : Reach server payingFirst (start db) cfg) (h' : Reach server payingFirst cfg cfg') :
    Atomically Move.change db.balances
      ((authors Move.call cfg'.state.moves).map cfg'.state.movesOf) cfg'.state.balances ∧
    authors Move.call cfg.state.moves <+: authors Move.call cfg'.state.moves := by
  have hreach := h.trans h'
  have hbacked := backed_reach hmoves hfunds hreach
  have hpay : PayFirst Move.change Move.call cfg'.state.moves := by
    intro i
    show ∀ m ∈ (cfg'.state.movesOf i).tail, _
    obtain ⟨hnone, hmoved⟩ := moved_reach hmoves hreach
    cases hth : cfg'.thread i with
    | none =>
      rw [hnone i hth]
      exact fun m hm => by cases hm
    | some th => exact (hmoved i th hth).credits (hreach.disciplined (fun _ _ _ hk => hk) rfl hth)
  refine ⟨?_, authors_isPrefix (moves_isPrefix h')⟩
  rw [show cfg'.state.balances = fun w => db.balances w + total Move.change cfg'.state.moves w from
    funext hbacked.balances]
  exact atomically_authors hpay hbacked.solvent

end Runs

/-- Thirty dollars, twice. -/
def thirtyAway (reference : String) : TransferDto :=
  { sixtyDollars with amount := 30, reference := reference }

/-- The second transfer begins before the first one credits. -/
def overlapping : List (Event Call Err) :=
  [.call 0 (.transfer (thirtyAway "t-1")), .call 1 (.transfer (thirtyAway "t-2"))] ++
    List.replicate 9 (.step 0 none) ++ List.replicate 10 (.step 1 none) ++ [.step 0 none]

theorem twoAccounts_funds (a : UserId) (c : String) : 0 ≤ twoAccounts.cents a c := by
  unfold Db.cents
  cases hw : twoAccounts.wallet a c with
  | none => exact le_refl 0
  | some w =>
    obtain rfl := List.mem_singleton.mp (Table.mem_of_get _ hw)
    decide

theorem moves_serializable_overlapping : ∃ cfg : ServerConfig,
    Reach server payingFirst (start twoAccounts) cfg ∧
    Atomically Move.change twoAccounts.balances
      ((authors Move.call cfg.state.moves).map cfg.state.movesOf) cfg.state.balances ∧
    cfg.state.moves.map Move.call = [0, 1, 1, 0] := by
  obtain ⟨cfg, hrun⟩ : ∃ cfg, server.run (start twoAccounts) overlapping = some cfg :=
    Option.isSome_iff_exists.mp (by decide +kernel)
  have horder : ((server.run (start twoAccounts) overlapping).map fun cfg =>
      cfg.state.moves.map Move.call) = some [0, 1, 1, 0] := by decide +kernel
  rw [hrun] at horder
  have hreach : Reach server payingFirst (start twoAccounts) cfg := by
    refine Reach.refl.of_run ?_ (fun _ _ _ _ => trivial) hrun
    intro i k hmem _
    simp only [overlapping, List.cons_append, List.nil_append, List.mem_cons, List.mem_append,
      List.mem_replicate, List.not_mem_nil, reduceCtorEq, and_false, or_false,
      Event.call.injEq] at hmem
    rcases hmem with ⟨-, rfl⟩ | ⟨-, rfl⟩
    · trivial
    · trivial
  exact ⟨cfg, hreach, (moves_serializable rfl twoAccounts_funds hreach .refl).1,
    Option.some.inj horder⟩

end NexaFx
