import Mathlib.Data.List.Basic
import Mathlib.Tactic.Common

/-!
# Fixed windows

A counter limits what it lets in to so many within a window of fixed width: it
counts within the last window it opened, and opens the next one, with a count of
one, for the first that comes after it. Limits may differ from kind to kind; the
count is of all kinds together.

When each is let in at a time that the last window contains, or opens the next
one, then what was let in within any window that was ever opened keeps to the
limits (`Inv.bounded`).
-/

namespace FixedWindow

variable {κ : Type}

/-- The count and the start of the last window, the windows opened so far, and
what was let in: its kind and its time. -/
structure Counter (κ : Type) where
  count : ℕ
  start : ℕ
  opened : List ℕ
  passed : List (κ × ℕ)

/-- The time is in the window that starts at `w`. -/
def inside (width w t : ℕ) : Bool := decide (w ≤ t ∧ t ≤ w + width)

/-- How many of the kind were let in within the window. -/
def within [DecidableEq κ] (width w : ℕ) (k : κ) (passed : List (κ × ℕ)) : ℕ :=
  passed.countP fun p => decide (p.1 = k) && inside width w p.2

structure Inv [DecidableEq κ] (limit : κ → ℕ) (width : ℕ) (c : Counter κ) : Prop where
  /-- The windows do not overlap, and the last one is the latest. -/
  apart : ∀ w ∈ c.opened, w = c.start ∨ w + width < c.start
  past : ∀ p ∈ c.passed, p.2 ≤ c.start + width
  counted : (c.passed.countP fun p => inside width c.start p.2) = c.count
  bounded : ∀ w ∈ c.opened, ∀ k, within width w k c.passed ≤ limit k

section Rules

variable [DecidableEq κ] {limit : κ → ℕ} {width w t : ℕ} {k k' : κ} {passed : List (κ × ℕ)}
  {c : Counter κ}

theorem inside_iff : inside width w t = true ↔ w ≤ t ∧ t ≤ w + width := decide_eq_true_iff

theorem within_concat_outside (ht : inside width w t = false) :
    within width w k' (passed ++ [(k, t)]) = within width w k' passed := by
  simp [within, List.countP_append, ht]

theorem within_concat_le : within width w k' (passed ++ [(k, t)]) ≤ within width w k' passed + 1 := by
  simp only [within, List.countP_append, List.countP_singleton]
  split <;> omega

theorem within_concat_ne (hk : k ≠ k') :
    within width w k' (passed ++ [(k, t)]) = within width w k' passed := by
  simp [within, List.countP_append, hk]

theorem within_le (width w : ℕ) (k : κ) (passed : List (κ × ℕ)) :
    within width w k passed ≤ passed.countP fun p => inside width w p.2 := by
  refine List.countP_mono_left fun p _ h => ?_
  simp only [Bool.and_eq_true] at h
  exact h.2

/-- The window that opens after the windows and the times before. -/
theorem inv_opens (opened : List ℕ) (passed : List (κ × ℕ)) (hopened : ∀ w ∈ opened, w + width < t)
    (hpassed : ∀ p ∈ passed, p.2 < t)
    (hbounded : ∀ w ∈ opened, ∀ k, within width w k passed ≤ limit k) (hlimit : 1 ≤ limit k) :
    Inv limit width ⟨1, t, opened ++ [t], passed ++ [(k, t)]⟩ := by
  have hnone : (passed.countP fun p => inside width t p.2) = 0 := by
    rw [List.countP_eq_zero]
    intro p hp hin
    have hbefore := hpassed p hp
    have hlate := (inside_iff.mp hin).1
    omega
  refine ⟨?apart, ?past, ?counted, ?bounded⟩
  case apart =>
    intro w hw
    rcases List.mem_append.mp hw with hold | hnew
    · exact Or.inr (hopened w hold)
    · exact Or.inl (List.mem_singleton.mp hnew)
  case past =>
    intro p hp
    show p.2 ≤ t + width
    rcases List.mem_append.mp hp with hold | hnew
    · have hbefore := hpassed p hold
      omega
    · rw [List.mem_singleton.mp hnew]
      show t ≤ t + width
      omega
  case counted =>
    show ((passed ++ [(k, t)]).countP fun p => inside width t p.2) = 1
    rw [List.countP_append, hnone, List.countP_singleton, if_pos (by simp [inside])]
  case bounded =>
    intro w hw k'
    show within width w k' (passed ++ [(k, t)]) ≤ limit k'
    rcases List.mem_append.mp hw with hold | hnew
    · have hout : inside width w t = false := by
        have hbefore := hopened w hold
        rw [inside, decide_eq_false_iff_not]
        omega
      rw [within_concat_outside hout]
      exact hbounded w hold k'
    · obtain rfl := List.mem_singleton.mp hnew
      have hle := within_le width w k' passed
      by_cases hk : k = k'
      · subst hk
        have hone : within width w k (passed ++ [(k, w)]) ≤ within width w k passed + 1 :=
          within_concat_le
        omega
      · rw [within_concat_ne hk]
        omega

/-- The first window. -/
theorem inv_first (hlimit : 1 ≤ limit k) : Inv limit width ⟨1, t, [t], [(k, t)]⟩ :=
  inv_opens [] [] (by simp) (by simp) (by simp) hlimit

/-- The next window. -/
theorem Inv.next (h : Inv limit width c) (ht : c.start + width < t) (hlimit : 1 ≤ limit k) :
    Inv limit width ⟨1, t, c.opened ++ [t], c.passed ++ [(k, t)]⟩ := by
  refine inv_opens c.opened c.passed (fun w hw => ?_) (fun p hp => ?_) h.bounded hlimit
  · rcases h.apart w hw with rfl | hbefore <;> omega
  · have hpast := h.past p hp
    omega

/-- One more in the last window. -/
theorem Inv.more (h : Inv limit width c) (hin : inside width c.start t = true)
    (hroom : c.count < limit k) :
    Inv limit width ⟨c.count + 1, c.start, c.opened, c.passed ++ [(k, t)]⟩ where
  apart := h.apart
  past p hp := by
    rcases List.mem_append.mp hp with hold | hnew
    · exact h.past p hold
    · rw [List.mem_singleton.mp hnew]
      exact (inside_iff.mp hin).2
  counted := by
    show ((c.passed ++ [(k, t)]).countP fun p => inside width c.start p.2) = c.count + 1
    rw [List.countP_append, h.counted, List.countP_singleton, if_pos hin]
  bounded w hw k' := by
    show within width w k' (c.passed ++ [(k, t)]) ≤ limit k'
    rcases h.apart w hw with rfl | hbefore
    · by_cases hk : k = k'
      · subst hk
        have hone : within width c.start k (c.passed ++ [(k, t)]) ≤
            within width c.start k c.passed + 1 := within_concat_le
        have hle := within_le width c.start k c.passed
        rw [h.counted] at hle
        omega
      · rw [within_concat_ne hk]
        exact h.bounded c.start hw k'
    · have hout : inside width w t = false := by
        have hafter := (inside_iff.mp hin).1
        rw [inside, decide_eq_false_iff_not]
        omega
      rw [within_concat_outside hout]
      exact h.bounded w hw k'

end Rules

end FixedWindow
