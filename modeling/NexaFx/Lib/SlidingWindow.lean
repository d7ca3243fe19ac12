import Mathlib.Data.List.Pairwise
import Mathlib.Tactic

/-!
# Sliding windows

Events at nondecreasing times, of which those count that lie less than `window`
back. Times are natural numbers; `t` is in the window at `now` when
`now < t + window`.

* `recent` — the times that still count;
* `within` — how many of them lie in `(t - window, t]`;
* `Bounded.concat` — another event keeps every window within the limit when
  fewer than the limit are recent.
-/

namespace SlidingWindow

-- ---------------------------------------------------------------------------
-- The times that still count
-- ---------------------------------------------------------------------------

def recent (window now : ℕ) (times : List ℕ) : List ℕ :=
  times.filter fun t => decide (now < t + window)

/-- The number of times in `(t - window, t]`. -/
def within (window t : ℕ) (times : List ℕ) : ℕ :=
  times.countP fun x => decide (t < x + window ∧ x ≤ t)

/-- No window holds more than `limit` events. -/
def Bounded (limit window : ℕ) (times : List ℕ) : Prop := ∀ t, within window t times ≤ limit

section Windows

variable {limit window now now' : ℕ} {times : List ℕ}

theorem recent_append (window now : ℕ) (times times' : List ℕ) :
    recent window now (times ++ times') = recent window now times ++ recent window now times' :=
  List.filter_append ..

theorem recent_self (window now : ℕ) (h : 0 < window) : recent window now [now] = [now] := by
  simp only [recent, List.filter_cons, List.filter_nil]
  rw [if_pos]
  simp only [decide_eq_true_eq]
  omega

/-- What has fallen out of the window stays out. -/
theorem recent_recent (h : now ≤ now') :
    recent window now' (recent window now times) = recent window now' times := by
  rw [recent, recent, List.filter_filter]
  apply List.filter_congr
  intro t _
  by_cases ht : now' < t + window
  · have hnow : now < t + window := by omega
    simp [ht, hnow]
  · simp [ht]

theorem recent_congr {times' : List ℕ} (heq : recent window now times = recent window now times')
    (h : now ≤ now') : recent window now' times = recent window now' times' := by
  rw [← recent_recent h, heq, recent_recent h]

/-- When nothing is later than `now`, what counts is in the window. -/
theorem within_eq_length (h : ∀ t ∈ times, t ≤ now) :
    within window now times = (recent window now times).length := by
  rw [within, recent, ← List.countP_eq_length_filter]
  apply List.countP_congr
  intro t ht
  have hle := h t ht
  simp only [decide_eq_true_eq]
  omega

theorem Bounded.nil (limit window : ℕ) : Bounded limit window [] := fun _ => Nat.zero_le _

theorem Bounded.length_recent (h : Bounded limit window times) (hle : ∀ t ∈ times, t ≤ now) :
    (recent window now times).length ≤ limit := by
  rw [← within_eq_length hle]
  exact h now

/-- One more event, while there is room. -/
theorem Bounded.concat (h : Bounded limit window times)
    (hroom : (recent window now times).length < limit) :
    Bounded limit window (times ++ [now]) := by
  intro t
  have hsplit : within window t (times ++ [now]) =
      within window t times + within window t [now] := List.countP_append ..
  rw [hsplit]
  by_cases ht : now ≤ t
  · -- what is in the window at `t` is recent
    have hrecent : within window t times ≤ (recent window now times).length := by
      rw [recent, ← List.countP_eq_length_filter]
      apply List.countP_mono_left
      intro x _ hx
      simp only [decide_eq_true_eq] at hx ⊢
      omega
    have hone : within window t [now] ≤ 1 := List.countP_le_length
    omega
  · have hzero : within window t [now] = 0 := by
      simp only [within, List.countP_cons, List.countP_nil, decide_eq_true_eq]
      rw [if_neg (by omega)]
    have hbound := h t
    omega

end Windows

-- ---------------------------------------------------------------------------
-- The oldest time that counts
-- ---------------------------------------------------------------------------

section Oldest

variable {window now now' oldest : ℕ} {times rest : List ℕ}

/-- Until the oldest falls out, all stay. -/
theorem recent_until (hsorted : times.Pairwise (· ≤ ·))
    (hrecent : recent window now times = oldest :: rest) (hnow : now ≤ now')
    (hlt : now' < oldest + window) :
    recent window now' times = recent window now times := by
  rw [← recent_recent hnow, recent, List.filter_eq_self]
  intro t ht
  have hsub : (recent window now times).Pairwise (· ≤ ·) := hsorted.sublist List.filter_sublist
  rw [hrecent] at hsub ht
  have hle : oldest ≤ t := by
    rcases List.mem_cons.mp ht with rfl | hrest
    · exact le_refl _
    · exact (List.pairwise_cons.mp hsub).1 t hrest
  simp only [decide_eq_true_eq]
  omega

/-- Then there is room again. -/
theorem recent_after (hrecent : recent window now times = oldest :: rest) (hnow : now ≤ now')
    (hle : oldest + window ≤ now') :
    (recent window now' times).length < (recent window now times).length := by
  rw [← recent_recent hnow, hrecent]
  have hout : recent window now' (oldest :: rest) = recent window now' rest := by
    rw [recent, recent, List.filter_cons_of_neg]
    simp only [decide_eq_true_eq]
    omega
  rw [hout]
  have hlen : (recent window now' rest).length ≤ rest.length := List.length_filter_le ..
  simp only [List.length_cons]
  omega

end Oldest

end SlidingWindow
