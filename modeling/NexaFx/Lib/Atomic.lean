import Mathlib.Algebra.Order.BigOperators.Group.List
import Mathlib.Data.List.Nodup
import Mathlib.Tactic.Abel
import Mathlib.Tactic.Common

/-!
# Histories taken apart

A history of changes to accounts, made by several authors who take turns. It is
carried out atomically when the authors go one after the other, each making all
of its changes at once.

A history in which only the first change of an author may be a debit can be
carried out so: in the order in which the authors first appear, no account is
overdrawn, and the balances at the end are the same (`atomically_authors`).
-/

namespace Reordering

variable {E ι W A : Type} [AddCommGroup A] [PartialOrder A] [IsOrderedAddMonoid A]
  {change : E → W → A} {b : W → A} {l : List E}

variable (change) in
/-- What a history adds to an account. -/
def total (l : List E) (w : W) : A := (l.map fun e => change e w).sum

variable (change) in
/-- At no moment is an account overdrawn. -/
def Solvent (b : W → A) (l : List E) : Prop := ∀ p, p <+: l → ∀ w, 0 ≤ b w + total change p w

variable (change) in
/-- The operations take effect one after the other, each as a whole, and none
overdraws an account. -/
def Atomically (b : W → A) : List (List E) → (W → A) → Prop
  | [], b' => b' = b
  | op :: ops, b' => Solvent change b op ∧ Atomically (fun w => b w + total change op w) ops b'

/-! ## Totals -/

section Totals

omit [PartialOrder A] [IsOrderedAddMonoid A]

@[simp] theorem total_nil (w : W) : total change ([] : List E) w = 0 := rfl

@[simp] theorem total_cons (e : E) (l : List E) (w : W) :
    total change (e :: l) w = change e w + total change l w := by
  simp [total]

@[simp] theorem total_append (l l' : List E) (w : W) :
    total change (l ++ l') w = total change l w + total change l' w := by
  simp [total]

/-- A history is what satisfies a condition and what does not. -/
theorem total_filter (q : E → Bool) (l : List E) (w : W) :
    total change l w =
      total change (l.filter q) w + total change (l.filter fun e => !q e) w := by
  induction l with
  | nil => simp
  | cons e l ih =>
    cases hq : q e with
    | true => simp [hq, ih, add_assoc]
    | false => simp [hq, ih, add_left_comm]

end Totals

theorem total_nonneg {w : W} (h : ∀ e ∈ l, 0 ≤ change e w) : 0 ≤ total change l w :=
  List.sum_nonneg fun _ hx => by
    obtain ⟨e, he, rfl⟩ := List.mem_map.mp hx
    exact h e he

omit [IsOrderedAddMonoid A] in
/-- One more change. -/
theorem Solvent.concat {e : E} (h : Solvent change b l)
    (hend : ∀ w, 0 ≤ b w + total change (l ++ [e]) w) : Solvent change b (l ++ [e]) := by
  intro p hp w
  rcases List.prefix_concat_iff.mp hp with rfl | hbefore
  · exact hend w
  · exact h p hbefore w

/-! ## Authors -/

variable [DecidableEq ι] {author : E → ι}

variable (author) in
/-- The authors, in the order in which they first appear. -/
def authors : List E → List ι
  | [] => []
  | e :: l => author e :: (authors l).filter fun i => decide (i ≠ author e)

variable (author) in
/-- What an author has written. -/
def written (l : List E) (i : ι) : List E := l.filter fun e => decide (author e = i)

variable (author change) in
/-- Only the first change of an author may be a debit. -/
def PayFirst (l : List E) : Prop := ∀ i, ∀ e ∈ (written author l i).tail, ∀ w, 0 ≤ change e w

section Authors

omit [AddCommGroup A] [PartialOrder A] [IsOrderedAddMonoid A]

theorem mem_authors {i : ι} : i ∈ authors author l ↔ ∃ e ∈ l, author e = i := by
  induction l with
  | nil => simp [authors]
  | cons e l ih =>
    rw [authors, List.mem_cons, List.mem_filter, ih]
    by_cases hi : i = author e
    · simp [hi]
    · simp [hi, Ne.symm hi]

/-- The authors but one are those of what the others have written. -/
theorem authors_filter (l : List E) (a : ι) :
    (authors author l).filter (fun i => decide (i ≠ a)) =
      authors author (l.filter fun e => decide (author e ≠ a)) := by
  induction l with
  | nil => rfl
  | cons e l ih =>
    rw [authors]
    by_cases he : author e = a
    · rw [List.filter_cons_of_neg (by simpa using he), List.filter_filter,
        List.filter_cons_of_neg (by simpa using he), ← ih, he]
      exact List.filter_congr fun i _ => by simp
    · rw [List.filter_cons_of_pos (by simpa using he), List.filter_cons_of_pos (by simpa using he),
        authors, ← ih, List.filter_filter, List.filter_filter]
      exact congrArg _ (List.filter_congr fun i _ => Bool.and_comm ..)

/-- As the history goes on, authors are added behind the others. -/
theorem authors_isPrefix {l' : List E} (h : l <+: l') : authors author l <+: authors author l' := by
  obtain ⟨rest, rfl⟩ := h
  induction l with
  | nil => exact List.nil_prefix
  | cons e l ih => exact List.cons_prefix_cons.mpr ⟨rfl, ih.filter _⟩

theorem written_cons_self (e : E) (l : List E) :
    written author (e :: l) (author e) = e :: written author l (author e) :=
  List.filter_cons_of_pos (by simp)

/-- What an author has written is among what all but another have. -/
theorem written_others {a i : ι} (h : i ≠ a) (l : List E) :
    written author (l.filter fun e => decide (author e ≠ a)) i = written author l i := by
  rw [written, List.filter_filter]
  refine List.filter_congr fun e _ => ?_
  by_cases he : author e = i
  · simp [he, h]
  · simp [he]

end Authors

/-- The others go on as if the first author had made all of its changes at once. -/
theorem solvent_others {a : ι} {e : E} (hcredits : ∀ e' ∈ written author l a, ∀ w, 0 ≤ change e' w)
    (h : Solvent change b (e :: l)) :
    Solvent change (fun w => b w + total change (e :: written author l a) w)
      (l.filter fun e => decide (author e ≠ a)) := by
  intro p hp w
  obtain ⟨p', hp', rfl⟩ := List.prefix_filter_iff.mp hp
  have hmoment := h (e :: p') (List.cons_prefix_cons.mpr ⟨rfl, hp'⟩) w
  have hmine : total change (p'.filter fun e => decide (author e = a)) w ≤
      total change (written author l a) w := by
    obtain ⟨rest, rfl⟩ := hp'
    rw [written, List.filter_append, total_append]
    refine le_add_of_nonneg_right (total_nonneg fun e' he' => hcredits e' ?_ w)
    rw [written, List.filter_append]
    exact List.mem_append_right _ he'
  have hsplit : total change p' w = total change (p'.filter fun e => decide (author e = a)) w +
      total change (p'.filter fun e => !decide (author e = a)) w := total_filter _ p' w
  have hothers : (p'.filter fun e => !decide (author e = a)) =
      p'.filter fun e => decide (author e ≠ a) := List.filter_congr fun e _ => by simp
  rw [hothers] at hsplit
  rw [total_cons, hsplit] at hmoment
  show 0 ≤ b w + total change (e :: written author l a) w + _
  rw [total_cons]
  calc (0 : A) ≤ b w + (change e w + (total change (p'.filter fun e => decide (author e = a)) w +
        total change (p'.filter fun e => decide (author e ≠ a)) w)) := hmoment
    _ ≤ b w + (change e w + (total change (written author l a) w +
        total change (p'.filter fun e => decide (author e ≠ a)) w)) := by gcongr
    _ = _ := by abel

/-- The first author makes all of its changes at once. -/
theorem solvent_first {a : ι} {e : E} (hcredits : ∀ e' ∈ written author l a, ∀ w, 0 ≤ change e' w)
    (h : Solvent change b (e :: l)) : Solvent change b (e :: written author l a) := by
  intro p hp w
  cases p with
  | nil => exact h [] List.nil_prefix w
  | cons e' p =>
    obtain ⟨rfl, hrest⟩ := List.cons_prefix_cons.mp hp
    have hfirst := h [e'] (List.cons_prefix_cons.mpr ⟨rfl, List.nil_prefix⟩) w
    have hcredit : 0 ≤ total change p w := total_nonneg fun e he => hcredits e (hrest.subset he) w
    rw [total_cons, total_nil, add_zero] at hfirst
    rw [total_cons, ← add_assoc]
    exact add_nonneg hfirst hcredit

/-- **Author by author.** -/
theorem atomically_authors (hpay : PayFirst change author l) (h : Solvent change b l) :
    Atomically change b ((authors author l).map (written author l))
      fun w => b w + total change l w := by
  induction hn : l.length using Nat.strong_induction_on generalizing l b with
  | _ n ih =>
    cases l with
    | nil => simp [authors, Atomically]
    | cons e l =>
      set others := l.filter fun e' => decide (author e' ≠ author e)
      have hcredits : ∀ e' ∈ written author l (author e), ∀ w, 0 ≤ change e' w := by
        have htail := hpay (author e)
        rwa [written_cons_self] at htail
      have hrest : ((authors author l).filter fun i => decide (i ≠ author e)).map
          (written author (e :: l)) = (authors author others).map (written author others) := by
        rw [authors_filter]
        refine List.map_congr_left fun i hi => ?_
        have hne : i ≠ author e := by
          obtain ⟨e', he', rfl⟩ := mem_authors.mp hi
          simpa using (List.mem_filter.mp he').2
        rw [written_others hne, written, List.filter_cons_of_neg (by simpa using Ne.symm hne),
          written]
      have hend : (fun w => b w + total change (e :: l) w) = fun w =>
          b w + total change (e :: written author l (author e)) w + total change others w := by
        funext w
        rw [total_cons, total_cons, total_filter (fun e' => decide (author e' = author e)) l w,
          ← add_assoc (change e w), ← add_assoc (b w)]
        refine congrArg (fun l' => b w + _ + total change l' w) ?_
        exact List.filter_congr fun e' _ => by simp
      rw [authors, List.map_cons, hrest, written_cons_self, hend]
      refine ⟨solvent_first hcredits h, ih others.length ?_ (fun i e' he' w => ?_)
        (solvent_others hcredits h) rfl⟩
      · rw [← hn, List.length_cons]
        exact Nat.lt_succ_of_le (List.length_filter_le ..)
      · by_cases hi : i = author e
        · have hnone : written author others i = [] := by
            rw [List.eq_nil_iff_forall_not_mem]
            intro x hx
            obtain ⟨hx, hwriter⟩ := List.mem_filter.mp hx
            have hother := (List.mem_filter.mp hx).2
            simp only [decide_eq_true_eq, ne_eq] at hwriter hother
            exact hother (hwriter.trans hi)
          rw [hnone] at he'
          cases he'
        · rw [written_others hi] at he'
          refine hpay i e' ?_ w
          rwa [written, List.filter_cons_of_neg (by simpa using Ne.symm hi)]

end Reordering
