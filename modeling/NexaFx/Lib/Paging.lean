import Mathlib.Tactic

/-!
# Pages of a sorted result

A result is read page by page, every page by a query of its own that sorts the
rows by a key and may put rows of one key in any order (`IsOrder`). Whether
the pages fit together at a boundary is a matter of ties: where no two rows on
either side of it share a key, all orders agree on what lies before it
(`take_perm`); where two do, there are orders that lose a row
(`exists_lost`).
-/

namespace Paging

variable {α K : Type} [LinearOrder K] (key : α → K)

/-- `l` is the rows `rows` in an order by key. -/
structure IsOrder (rows l : List α) : Prop where
  perm : l.Perm rows
  sorted : l.Pairwise fun a b => key a ≤ key b

/-- `ORDER BY key`: an order for every result. -/
structure OrderBy where
  sort : List α → List α
  isOrder : ∀ rows, IsOrder key rows (sort rows)

/-- No rows of one key lie on both sides of the boundary behind `b` rows. -/
def NoTieAt (rows : List α) (b : ℕ) : Prop :=
  ∀ t, ¬ (rows.countP (fun a => key a < t) < b ∧ b < rows.countP fun a => key a ≤ t)

variable {key}

section Prefix

variable {p : α → Bool}

/-- What holds of a row and so of all before it holds of none if not of the first. -/
theorem countP_eq_zero {a : α} {l : List α}
    (hsorted : (a :: l).Pairwise fun a b => p b = true → p a = true) (ha : p a = false) :
    (a :: l).countP p = 0 := by
  rw [List.countP_eq_zero]
  intro b hb hpb
  rcases List.mem_cons.mp hb with rfl | hb
  · rw [ha] at hpb
    cases hpb
  · rw [List.rel_of_pairwise_cons hsorted hb hpb] at ha
    cases ha

theorem filter_eq_take {l : List α} (hsorted : l.Pairwise fun a b => p b = true → p a = true) :
    l.filter p = l.take (l.countP p) := by
  induction l with
  | nil => rfl
  | cons a l ih =>
    cases ha : p a with
    | true =>
      rw [List.filter_cons_of_pos ha, List.countP_cons_of_pos ha, ih hsorted.of_cons,
        List.take_succ_cons]
    | false =>
      have hzero := countP_eq_zero hsorted ha
      rw [hzero, List.take_zero, List.filter_eq_nil_iff]
      exact List.countP_eq_zero.mp hzero

/-- The rows it holds of are those before its count. -/
theorem holds_iff {l : List α} (hsorted : l.Pairwise fun a b => p b = true → p a = true) {i : ℕ}
    (hi : i < l.length) : p l[i] = true ↔ i < l.countP p := by
  induction l generalizing i with
  | nil => cases hi
  | cons a l ih =>
    cases ha : p a with
    | true =>
      rw [List.countP_cons_of_pos ha]
      cases i with
      | zero => exact ⟨fun _ => Nat.succ_pos _, fun _ => ha⟩
      | succ i => exact (ih hsorted.of_cons (Nat.lt_of_succ_lt_succ hi)).trans (by omega)
    | false =>
      have hzero := countP_eq_zero hsorted ha
      rw [hzero]
      refine ⟨fun h => ?_, fun h => absurd h (Nat.not_lt_zero i)⟩
      exact absurd h (List.countP_eq_zero.mp hzero _ (List.getElem_mem hi))

end Prefix

section Orders

variable {rows l l' : List α} (h : IsOrder key rows l)

include h

theorem IsOrder.le_prefix (t : K) :
    l.Pairwise fun a b => decide (key b ≤ t) = true → decide (key a ≤ t) = true :=
  h.sorted.imp fun hab hb => decide_eq_true (hab.trans (of_decide_eq_true hb))

theorem IsOrder.lt_prefix (t : K) :
    l.Pairwise fun a b => decide (key b < t) = true → decide (key a < t) = true :=
  h.sorted.imp fun hab hb => decide_eq_true (hab.trans_lt (of_decide_eq_true hb))

theorem IsOrder.filter_le (t : K) :
    l.filter (fun a => key a ≤ t) = l.take (rows.countP fun a => key a ≤ t) := by
  rw [← h.perm.countP_eq]
  exact filter_eq_take (h.le_prefix t)

theorem IsOrder.le_iff {i : ℕ} (hi : i < l.length) (t : K) :
    key l[i] ≤ t ↔ i < rows.countP fun a => key a ≤ t := by
  rw [← h.perm.countP_eq, ← holds_iff (h.le_prefix t) hi, decide_eq_true_iff]

theorem IsOrder.lt_iff {i : ℕ} (hi : i < l.length) (t : K) :
    key l[i] < t ↔ i < rows.countP fun a => key a < t := by
  rw [← h.perm.countP_eq, ← holds_iff (h.lt_prefix t) hi, decide_eq_true_iff]

/-- Orders of the same rows have the same keys in the same places. -/
theorem IsOrder.map_key (h' : IsOrder key rows l') : l.map key = l'.map key :=
  List.Perm.eq_of_pairwise (fun _ _ _ _ => le_antisymm) (List.pairwise_map.mpr h.sorted)
    (List.pairwise_map.mpr h'.sorted) ((h.perm.trans h'.perm.symm).map key)

/-- The rows before a boundary without a tie are those up to a key. -/
theorem exists_bound {b : ℕ} (htie : NoTieAt key rows b) (hpos : 0 < b) (hb : b ≤ rows.length) :
    ∃ t, rows.countP (fun a => key a ≤ t) = b := by
  have hlen : b - 1 < l.length := by
    rw [h.perm.length_eq]
    omega
  refine ⟨key l[b - 1], ?_⟩
  have hle := (h.le_iff hlen (key l[b - 1])).mp le_rfl
  have hlt := mt (h.lt_iff hlen (key l[b - 1])).mpr (lt_irrefl _)
  have hno := htie (key l[b - 1])
  omega

/-- **All orders agree on the rows before a boundary without a tie.** -/
theorem take_perm (h' : IsOrder key rows l') {b : ℕ} (htie : NoTieAt key rows b) :
    (l.take b).Perm (l'.take b) := by
  rcases Nat.eq_zero_or_pos b with rfl | hpos
  · rw [List.take_zero, List.take_zero]
  · rcases Nat.lt_or_ge rows.length b with hlt | hb
    · rw [List.take_of_length_le (by rw [h.perm.length_eq]; omega),
        List.take_of_length_le (by rw [h'.perm.length_eq]; omega)]
      exact h.perm.trans h'.perm.symm
    · obtain ⟨t, rfl⟩ := exists_bound h htie hpos hb
      rw [← h.filter_le t, ← h'.filter_le t]
      exact (h.perm.trans h'.perm.symm).filter _

/-- **Where a tie lies on a boundary, an order can lose a row**: some row is
neither before it in `l` nor behind it in another order. -/
theorem exists_lost (hnodup : rows.Nodup) {b : ℕ} (htie : ¬ NoTieAt key rows b) :
    ∃ l', IsOrder key rows l' ∧ ∃ y ∈ rows, y ∉ l.take b ∧ y ∉ l'.drop b := by
  obtain ⟨t, ht⟩ := not_forall.mp htie
  obtain ⟨hlt, hle⟩ := not_not.mp ht
  have hlen : b < l.length := by
    rw [h.perm.length_eq]
    exact lt_of_lt_of_le hle List.countP_le_length
  have hlen' : b - 1 < l.length := by omega
  have hkey : key l[b - 1] = key l[b] := by
    have h1 := (h.le_iff hlen t).mpr hle
    have h2 := mt (h.lt_iff hlen' t).mp (by omega)
    exact le_antisymm (List.pairwise_iff_getElem.mp h.sorted _ _ _ _ (by omega))
      (h1.trans (not_lt.mp h2))
  have hsplit : l = l.take (b - 1) ++ l[b - 1] :: l[b] :: l.drop (b + 1) := by
    have hb : b - 1 + 1 = b := by omega
    have hdrop := List.drop_eq_getElem_cons hlen'
    simp only [hb, List.drop_eq_getElem_cons hlen] at hdrop
    rw [← hdrop, List.take_append_drop]
  have hu : (l.take (b - 1)).length + 1 = b := by
    rw [List.length_take]
    omega
  generalize l.take (b - 1) = u, l[b - 1] = x, l[b] = y, l.drop (b + 1) = v at *
  subst hsplit hu
  have hnd : (u ++ x :: y :: v).Nodup := h.perm.nodup_iff.mpr hnodup
  obtain ⟨-, hxyv, hdisjoint⟩ := List.nodup_append.mp hnd
  obtain ⟨hx, hyv⟩ := List.nodup_cons.mp hxyv
  have hyu : y ∉ u := fun hy => hdisjoint y hy y (by simp) rfl
  have hyx : y ≠ x := fun heq => hx (heq ▸ List.mem_cons_self ..)
  -- the other order has the two rows at the boundary the other way round
  refine ⟨u ++ y :: x :: v, ⟨?_, ?_⟩, y, h.perm.mem_iff.mp (by simp), ?_, ?_⟩
  · exact ((List.Perm.swap x y v).append_left u).trans h.perm
  · have hmap : (u ++ y :: x :: v).map key = (u ++ x :: y :: v).map key := by simp [hkey]
    rw [← List.pairwise_map, hmap]
    exact List.pairwise_map.mpr h.sorted
  · rw [List.take_append, List.take_of_length_le (by omega)]
    simp [hyu, hyx]
  · rw [List.drop_append, List.drop_eq_nil_of_le (by omega)]
    simp [hyx, (List.nodup_cons.mp hyv).1]

end Orders

/-! ## Any order is one that a query may choose -/

/-- The stable sort. -/
def OrderBy.stable (key : α → K) : OrderBy key where
  sort rows := rows.mergeSort fun a b => key a ≤ key b
  isOrder rows := by
    have hsorted : (rows.mergeSort fun a b => key a ≤ key b).Pairwise
        fun a b => decide (key a ≤ key b) = true := by
      refine List.pairwise_mergeSort (fun a b c hab hbc => ?_) (fun a b => ?_) rows
      · exact decide_eq_true ((of_decide_eq_true hab).trans (of_decide_eq_true hbc))
      · rw [Bool.or_eq_true, decide_eq_true_iff, decide_eq_true_iff]
        exact le_total _ _
    exact ⟨List.mergeSort_perm _ _, hsorted.imp of_decide_eq_true⟩

/-- Sorts the rows `rows` into `l`, and others by the stable sort. -/
def OrderBy.choose [DecidableEq α] {rows l : List α} (h : IsOrder key rows l) : OrderBy key where
  sort rows' := if rows' = rows then l else (OrderBy.stable key).sort rows'
  isOrder rows' := by
    split
    · rename_i heq
      exact heq ▸ h
    · exact (OrderBy.stable key).isOrder rows'

theorem OrderBy.choose_sort [DecidableEq α] {rows l : List α} (h : IsOrder key rows l) :
    (OrderBy.choose h).sort rows = l := if_pos rfl

end Paging
