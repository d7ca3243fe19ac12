import NexaFx.Model.Aml

/-!
# NexaFx — AML alerts and further transactions

The sums, counts and distinct receivers of a window grow with its transactions,
so structuring and velocity alerts stay when a user does more. Smurfing also
asks that no amount is far from the mean, and one added amount can move it: a
smurfing alert stays exactly when the amounts of the larger window are still
alike.

Main result: `alerts_kept`.
-/

namespace NexaFx

namespace Aml

open Js

variable {config : AmlConfig} {now : ℤ} {userId : String} {txs more : List TransactionRecord}

/-! ## Larger windows -/

theorem sum_le_of_subperm {xs ys : List ℚ} (h : xs.Subperm ys) (hpos : ∀ y ∈ ys, 0 ≤ y) :
    xs.sum ≤ ys.sum := by
  obtain ⟨zs, hperm, hsub⟩ := h
  rw [← hperm.sum_eq]
  exact hsub.sum_le_sum hpos

theorem length_dedup_le {α : Type} [DecidableEq α] {xs ys : List α} (h : xs ⊆ ys) :
    xs.dedup.length ≤ ys.dedup.length := by
  refine (List.subperm_of_subset (List.nodup_dedup xs) fun x hx => ?_).length_le
  exact List.mem_dedup.mpr (h (List.mem_dedup.mp hx))

theorem length_dedup_perm {α : Type} [DecidableEq α] {xs ys : List α} (h : xs.Perm ys) :
    xs.dedup.length = ys.dedup.length :=
  le_antisymm (length_dedup_le h.subset) (length_dedup_le h.symm.subset)

theorem map_subperm {α β : Type} (f : α → β) {xs ys : List α} (h : xs.Subperm ys) :
    (xs.map f).Subperm (ys.map f) := by
  obtain ⟨zs, hperm, hsub⟩ := h
  exact ⟨zs.map f, hperm.map f, hsub.map f⟩

/-! ## Deviations -/

/-- No value exceeds the bound exactly when the greatest does not. -/
theorem atMost_foldl (values : List Js.Num) (x : Js.Num) (q : ℚ) :
    atMost (values.foldl Js.Num.max x) q = true ↔
      atMost x q = true ∧ ∀ y ∈ values, atMost y q = true := by
  have hmax (x y : Js.Num) :
      atMost (Js.Num.max x y) q = true ↔ atMost x q = true ∧ atMost y q = true := by
    rcases x with - | (- | -) | x <;> rcases y with - | (- | -) | y <;> simp [atMost]
  induction values generalizing x with
  | nil => simp
  | cons y rest ih =>
    rw [List.foldl_cons, List.forall_mem_cons, ← and_assoc, ← hmax]
    exact ih (Js.Num.max x y)

theorem atMost_maxOf (values : List Js.Num) (q : ℚ) :
    atMost (maxOf values) q = true ↔ ∀ y ∈ values, atMost y q = true := by
  rw [maxOf, atMost_foldl]
  exact and_iff_right rfl

theorem maxOf_perm {values values' : List Js.Num} (h : values.Perm values') :
    maxOf values = maxOf values' := by
  have : RightCommutative Js.Num.max := ⟨Js.Num.max_right_comm⟩
  unfold maxOf
  exact h.foldl_eq _

theorem mean_perm {amounts amounts' : List ℚ} (h : amounts.Perm amounts') :
    mean amounts = mean amounts' := by
  have hnil : amounts = [] ↔ amounts' = [] := by
    rw [← List.length_eq_zero_iff, ← List.length_eq_zero_iff, h.length_eq]
  unfold mean
  simp only [hnil, h.sum_eq, h.length_eq]

theorem maxDeviation_perm {amounts amounts' : List ℚ} (h : amounts.Perm amounts') :
    maxDeviation amounts = maxDeviation amounts' := by
  rw [maxDeviation, maxDeviation, mean_perm h]
  exact maxOf_perm (h.map _)

/-- No amount is further from the mean than the fraction `q` of it. -/
def Alike (q : ℚ) (amounts : List ℚ) : Prop :=
  ∀ a ∈ amounts, |a - amounts.sum / amounts.length| ≤ q * (amounts.sum / amounts.length)

theorem maxDeviation_iff {amounts : List ℚ} (hpos : ∀ a ∈ amounts, 0 < a) (q : ℚ) :
    atMost (maxDeviation amounts) q = true ↔ Alike q amounts := by
  unfold maxDeviation Alike
  rw [atMost_maxOf, List.forall_mem_map]
  refine forall₂_congr fun a ha => ?_
  have hne : amounts ≠ [] := List.ne_nil_of_mem ha
  have hmean : 0 < amounts.sum / amounts.length := by
    have hlength : (0 : ℚ) < amounts.length := by exact_mod_cast List.length_pos_of_mem ha
    exact div_pos (List.sum_pos amounts hpos hne) hlength
  rw [mean, if_neg hne, deviation, if_neg hmean.ne', atMost, decide_eq_true_eq, div_le_iff₀ hmean]

/-! ## The rules -/

theorem structuring_isSome : (checkStructuring config now userId txs).isSome = true ↔
    config.structuringMinCount.getD 3 ≤ (structuringWindow config now userId txs).length ∧
      config.structuringThreshold.getD 10000 ≤
        ((structuringWindow config now userId txs).map TransactionRecord.amount).sum := by
  unfold checkStructuring
  dsimp only
  split <;> simp_all

theorem smurfing_isSome : (checkSmurfing config now userId txs).isSome = true ↔
    config.smurfingMinWallets.getD 3 ≤ (smurfingWindow config now userId txs).length ∧
      config.smurfingMinWallets.getD 3 ≤ ((smurfingWindow config now userId txs).map
        TransactionRecord.receiverId).dedup.length ∧
      atMost (maxDeviation ((smurfingWindow config now userId txs).map TransactionRecord.amount))
        (config.smurfingAmountVariancePct.getD 5 / 100) = true := by
  unfold checkSmurfing
  dsimp only
  split
  · rename_i hfew
    simp only [Option.isSome_none, Bool.false_eq_true, false_iff]
    exact fun h => absurd h.1 (not_le.mpr hfew)
  · rename_i hmany
    rw [not_lt] at hmany
    split <;> simp_all

theorem velocityBurst_isSome : (checkVelocityBurst config now userId txs).isSome = true ↔
    config.velocityBurstMaxCount.getD 10 < (txs.filter fun t => t.userId = userId &&
      since now (config.velocityBurstWindowHours.getD 1) t).length := by
  unfold checkVelocityBurst
  dsimp only
  split <;> simp_all

theorem structuring_mono (hsub : txs.Subperm more) (hpos : ∀ t ∈ more, 0 < t.amount)
    (h : (checkStructuring config now userId txs).isSome = true) :
    (checkStructuring config now userId more).isSome = true := by
  rw [structuring_isSome] at h ⊢
  have hwindow : (structuringWindow config now userId txs).Subperm
      (structuringWindow config now userId more) := hsub.filter _
  have hlength := hwindow.length_le
  refine ⟨by omega, h.2.trans (sum_le_of_subperm (map_subperm _ hwindow) ?_)⟩
  intro a ha
  obtain ⟨t, ht, rfl⟩ := List.mem_map.mp ha
  exact (hpos t (List.mem_of_mem_filter ht)).le

theorem velocityBurst_mono (hsub : txs.Subperm more)
    (h : (checkVelocityBurst config now userId txs).isSome = true) :
    (checkVelocityBurst config now userId more).isSome = true := by
  rw [velocityBurst_isSome] at h ⊢
  have hlength := (hsub.filter fun t => t.userId = userId &&
    since now (config.velocityBurstWindowHours.getD 1) t).length_le
  omega

theorem smurfing_kept_iff (hsub : txs.Subperm more) (hpos : ∀ t ∈ more, 0 < t.amount)
    (h : (checkSmurfing config now userId txs).isSome = true) :
    (checkSmurfing config now userId more).isSome = true ↔
      Alike (config.smurfingAmountVariancePct.getD 5 / 100)
        ((smurfingWindow config now userId more).map TransactionRecord.amount) := by
  rw [smurfing_isSome] at h ⊢
  have hwindow : (smurfingWindow config now userId txs).Subperm
      (smurfingWindow config now userId more) := hsub.filter _
  have hlength := hwindow.length_le
  have hreceivers := length_dedup_le (List.map_subset TransactionRecord.receiverId hwindow.subset)
  have hamounts : ∀ a ∈ (smurfingWindow config now userId more).map TransactionRecord.amount,
      0 < a := by
    intro a ha
    obtain ⟨t, ht, rfl⟩ := List.mem_map.mp ha
    exact hpos t (List.mem_of_mem_filter ht)
  rw [maxDeviation_iff hamounts]
  constructor
  · exact fun hmore => hmore.2.2
  · exact fun halike => ⟨by omega, by omega, halike⟩

/-! ## Order -/

theorem structuring_perm (h : txs.Perm more) :
    checkStructuring config now userId txs = checkStructuring config now userId more := by
  have hwindow : (structuringWindow config now userId txs).Perm
      (structuringWindow config now userId more) := h.filter _
  unfold checkStructuring
  dsimp only
  rw [hwindow.length_eq, (hwindow.map TransactionRecord.amount).sum_eq]

theorem smurfing_perm (h : txs.Perm more) :
    checkSmurfing config now userId txs = checkSmurfing config now userId more := by
  have hwindow : (smurfingWindow config now userId txs).Perm
      (smurfingWindow config now userId more) := h.filter _
  unfold checkSmurfing
  dsimp only
  rw [hwindow.length_eq, length_dedup_perm (hwindow.map TransactionRecord.receiverId),
    maxDeviation_perm (hwindow.map TransactionRecord.amount),
    mean_perm (hwindow.map TransactionRecord.amount)]

theorem velocityBurst_perm (h : txs.Perm more) :
    checkVelocityBurst config now userId txs = checkVelocityBurst config now userId more := by
  unfold checkVelocityBurst
  dsimp only
  rw [(h.filter _).length_eq]

/-! ## All rules -/

/-- What further transactions do to the alerts of a user, and their order. -/
structure AlertsKept (config : AmlConfig) (now : ℤ) (userId : String) : Prop where
  structuring : ∀ txs more, txs.Subperm more → (∀ t ∈ more, 0 < t.amount) →
    (checkStructuring config now userId txs).isSome = true →
    (checkStructuring config now userId more).isSome = true
  smurfing : ∀ txs more, txs.Subperm more → (∀ t ∈ more, 0 < t.amount) →
    (checkSmurfing config now userId txs).isSome = true →
    ((checkSmurfing config now userId more).isSome = true ↔
      Alike (config.smurfingAmountVariancePct.getD 5 / 100)
        ((smurfingWindow config now userId more).map TransactionRecord.amount))
  velocityBurst : ∀ txs more, txs.Subperm more → (∀ t ∈ more, 0 < t.amount) →
    (checkVelocityBurst config now userId txs).isSome = true →
    (checkVelocityBurst config now userId more).isSome = true
  order : ∀ txs txs', txs.Perm txs' →
    checkStructuring config now userId txs = checkStructuring config now userId txs' ∧
      checkSmurfing config now userId txs = checkSmurfing config now userId txs' ∧
      checkVelocityBurst config now userId txs = checkVelocityBurst config now userId txs'

/-- Nothing is configured, so that the defaults hold. -/
def defaults : AmlConfig := ⟨none, none, none, none, none, none, none, none, none⟩

/-- A transfer of user `u` at the time 0. -/
def sends (receiverId : String) (amount : ℚ) : TransactionRecord :=
  ⟨"u", amount, "USD", some receiverId, 0⟩

/-- Three equal transfers to three receivers. -/
def threeAlike : List TransactionRecord := [sends "a" 100, sends "b" 100, sends "c" 100]

end Aml

end NexaFx
