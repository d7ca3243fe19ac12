import Mathlib.Data.List.Sort
import Mathlib.Tactic

/-!
# Backlogs

A worker that takes the first entries of a backlog in the order of a key, over
and over. `sort_split` says which entries come before a given one: of the
entries before it in the list those whose key is not larger, of those behind it
those whose key is smaller. `exists_served` is the progress argument.
-/

namespace Backlog

variable {α : Type} (key : α → ℕ)

/-- The backlog in the order of its keys; equal keys stay in their order. -/
abbrev sort (l : List α) : List α := l.insertionSort fun a b => key a ≤ key b

theorem sort_cons (a : α) (l : List α) :
    sort key (a :: l) = (sort key l).orderedInsert (fun a b => key a ≤ key b) a := rfl

/-- An insertion before an entry with a key that is not smaller. -/
theorem orderedInsert_before {x d : α} (h : key x ≤ key d) (front back : List α) :
    (front ++ d :: back).orderedInsert (fun a b => key a ≤ key b) x =
      front.orderedInsert (fun a b => key a ≤ key b) x ++ d :: back := by
  induction front with
  | nil => exact List.orderedInsert_cons_of_le _ _ h
  | cons a front ih =>
    rw [List.cons_append, List.orderedInsert_cons, List.orderedInsert_cons, ih]
    split <;> rfl

/-- An insertion behind an entry with a smaller key. -/
theorem orderedInsert_behind {x d : α} (h : key d < key x) {front : List α}
    (hfront : ∀ a ∈ front, key a ≤ key d) (back : List α) :
    (front ++ d :: back).orderedInsert (fun a b => key a ≤ key b) x =
      front ++ d :: back.orderedInsert (fun a b => key a ≤ key b) x := by
  induction front with
  | nil => exact List.orderedInsert_of_not_le _ _ (not_le.mpr h)
  | cons a front ih =>
    have ha := hfront a (List.mem_cons_self ..)
    rw [List.cons_append, List.orderedInsert_cons, if_neg (show ¬ key x ≤ key a by omega),
      ih fun b hb => hfront b (List.mem_cons_of_mem _ hb)]
    rfl

/-- Where an entry ends up that was in front of all others. -/
theorem orderedInsert_split (d : α) {l : List α} (h : l.Pairwise fun a b => key a ≤ key b) :
    ∃ back, l.orderedInsert (fun a b => key a ≤ key b) d =
      (l.filter fun a => decide (key a < key d)) ++ d :: back := by
  induction l with
  | nil => exact ⟨[], rfl⟩
  | cons a l ih =>
    obtain ⟨ha, hl⟩ := List.pairwise_cons.mp h
    by_cases hlt : key a < key d
    · obtain ⟨back, hback⟩ := ih hl
      refine ⟨back, ?_⟩
      rw [List.orderedInsert_cons, if_neg (not_le.mpr hlt), hback,
        List.filter_cons_of_pos (by simpa using hlt)]
      rfl
    · have hnone : (a :: l).filter (fun a => decide (key a < key d)) = [] := by
        rw [List.filter_eq_nil_iff]
        intro b hb
        rcases List.mem_cons.mp hb with rfl | hb
        · simpa using hlt
        · have hle := ha b hb
          simp only [decide_eq_true_eq]
          omega
      exact ⟨a :: l, by
        rw [hnone, List.orderedInsert_cons, if_pos (not_lt.mp hlt), List.nil_append]⟩

/-- **What comes before an entry.** -/
theorem sort_split (pre : List α) (d : α) (post : List α) :
    ∃ front back, sort key (pre ++ d :: post) = front ++ d :: back ∧
      front.Perm ((pre.filter fun a => decide (key a ≤ key d)) ++
        post.filter fun a => decide (key a < key d)) := by
  induction pre with
  | nil =>
    obtain ⟨back, hback⟩ := orderedInsert_split key d (l := sort key post)
      (List.pairwise_insertionSort (r := fun a b => key a ≤ key b) post)
    refine ⟨_, back, hback, ?_⟩
    exact (List.perm_insertionSort _ post).filter _
  | cons x pre ih =>
    obtain ⟨front, back, hsort, hperm⟩ := ih
    rw [List.cons_append, sort_cons, hsort]
    by_cases hx : key x ≤ key d
    · refine ⟨_, back, orderedInsert_before key hx front back, ?_⟩
      rw [List.filter_cons_of_pos (by simpa using hx)]
      exact (List.perm_orderedInsert _ x front).trans (hperm.cons x)
    · have hfront : ∀ a ∈ front, key a ≤ key d := by
        intro a ha
        rcases List.mem_append.mp (hperm.mem_iff.mp ha) with ha | ha
        · exact of_decide_eq_true (List.mem_filter.mp ha).2
        · exact (of_decide_eq_true (List.mem_filter.mp ha).2).le
      refine ⟨front, _, orderedInsert_behind key (not_le.mp hx) hfront back, ?_⟩
      rw [List.filter_cons_of_neg (by simpa using hx)]
      exact hperm

/-- An entry is among the first `n` when fewer than `n` come before it. -/
theorem mem_take_iff {front back : List α} {d : α} (hd : d ∉ front) (n : ℕ) :
    d ∈ (front ++ d :: back).take n ↔ front.length < n := by
  constructor
  · intro h
    by_contra hle
    rw [List.take_append_of_le_length (not_lt.mp hle)] at h
    exact hd (List.mem_of_mem_take h)
  · intro hlt
    obtain ⟨m, rfl⟩ := Nat.exists_eq_add_of_lt hlt
    rw [show front.length + m + 1 = front.length + (m + 1) by omega, List.take_length_add_append]
    exact List.mem_append_right _ (by simp)

/-! ## Rounds -/

section Rounds

variable {p q : α → Bool} {f : α → α} {l : List α}

/-- A round after which only entries are counted that were counted before. -/
theorem countP_map_le (h : ∀ x ∈ l, p (f x) = true → q x = true) :
    (l.map f).countP p ≤ l.countP q := by
  rw [List.countP_map]
  exact List.countP_mono_left h

/-- A round that takes an entry from the count. -/
theorem countP_map_lt (h : ∀ x ∈ l, p (f x) = true → q x = true) {x : α} (hx : x ∈ l)
    (hq : q x = true) (hp : ¬ p (f x) = true) : (l.map f).countP p < l.countP q := by
  obtain ⟨front, back, rfl⟩ := List.append_of_mem hx
  have hfront := countP_map_le fun y hy => h y (List.mem_append_left _ hy)
  have hback := countP_map_le fun y hy =>
    h y (List.mem_append_right _ (List.mem_cons_of_mem _ hy))
  rw [List.map_append, List.map_cons, List.countP_append, List.countP_append,
    List.countP_cons_of_neg hp, List.countP_cons_of_pos hq]
  omega

end Rounds

/-- **Progress.** As long as nothing is served, a measure gets smaller. -/
theorem exists_served {σ : Type} (round : σ → σ) (Inv : ℕ → σ → Prop) (Served : σ → Prop)
    (h : ∀ m s, Inv m s → ¬ Served s → ∃ m' < m, Inv m' (round s)) {m : ℕ} {s : σ}
    (hs : Inv m s) : ∃ n m', Inv m' (round^[n] s) ∧ Served (round^[n] s) := by
  induction m using Nat.strong_induction_on generalizing s with
  | _ m ih =>
    by_cases hserved : Served s
    · exact ⟨0, m, hs, hserved⟩
    · obtain ⟨m', hlt, hinv⟩ := h m s hs hserved
      obtain ⟨n, m'', hn⟩ := ih m' hlt hinv
      exact ⟨n + 1, m'', hn⟩

end Backlog
