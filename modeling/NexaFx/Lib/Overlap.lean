import NexaFx.Lib.Pool

/-!
# Overlapping calls

Calls see that something is free and take it later, with no lock in between. How
much of it is then taken at most is how many such calls are under way at once.

* `Config.underWay` — the contending calls that have not ended;
* `Config.cleared` — those that have seen it free and have not taken it yet;
* `Within` — what is taken and what may still be are `n` at most;
* `Within.spawn`, `Within.resume` — kept by calls that respect the bound, and by
  steps that take one at most or have just seen that nothing is taken.
-/

namespace Async

variable {K C : Type} {R : C → Type} {ε σ α : Type}

namespace Config

/-- The contending calls that have not ended. -/
def underWay (contends : K → Bool) (cfg : Config K C R ε σ α) : ℕ :=
  cfg.threads.countP fun th => contends th.call && !th.proc.isDone

/-- The contending calls that have seen it free. -/
def cleared (contends : K → Bool) (clear : Proc C R ε α → Bool) (cfg : Config K C R ε σ α) : ℕ :=
  cfg.threads.countP fun th => contends th.call && clear th.proc

/-- Counting the calls after one more is made. -/
theorem countP_spawn {cfg : Config K C R ε σ α} {i : ℕ} (h : cfg.thread i = none) (k : K)
    (p : Proc C R ε α) (f : Thread K C R ε α → Bool) :
    (cfg.spawn i k p).threads.countP f =
      cfg.threads.countP f + if f ⟨i, k, false, p⟩ then 1 else 0 :=
  Table.countP_put_new Thread.id f h

/-- Counting the calls after a step of one of them. -/
theorem countP_resume {cfg : Config K C R ε σ α} {i : ℕ} {th : Thread K C R ε α}
    (h : cfg.thread i = some th) {c : C} (next : Except ε (R c) → Proc C R ε α)
    (r : Except ε (R c × σ)) (f : Thread K C R ε α → Bool) :
    (cfg.resume th next r).threads.countP f + (if f th then 1 else 0) =
      cfg.threads.countP f +
        if f { th with begun := true, proc := next (reply r) } then 1 else 0 := by
  refine Table.countP_put_old Thread.id f (x := th) ?_
  rw [← id_of_thread h] at h
  exact h

end Config

section Within

variable {contends : K → Bool} {clear : Proc C R ε α → Bool} {used : σ → ℕ} {n : ℕ}
  {cfg : Config K C R ε σ α}

/-- What is taken, and what may be taken by the calls that have seen it free. -/
structure Within (contends : K → Bool) (clear : Proc C R ε α → Bool) (used : σ → ℕ) (n : ℕ)
    (cfg : Config K C R ε σ α) : Prop where
  underWay : cfg.underWay contends ≤ n
  used : used cfg.state + cfg.cleared contends clear ≤ n

/-- A call that has seen it free has not ended. -/
theorem cleared_le_underWay (hlive : ∀ p, clear p = true → p.isDone = false) :
    cfg.cleared contends clear ≤ cfg.underWay contends := by
  refine List.countP_mono_left fun th _ h => ?_
  rw [Bool.and_eq_true] at h ⊢
  exact ⟨h.1, by rw [hlive _ h.2]; rfl⟩

/-- There is room for a call that has seen it free. -/
theorem Within.room (h : Within contends clear used n cfg) {i : ℕ} {th : Thread K C R ε α}
    (hth : cfg.thread i = some th) (hclear : (contends th.call && clear th.proc) = true) :
    used cfg.state < n := by
  have hpos : 0 < cfg.cleared contends clear :=
    List.countP_pos_iff.mpr ⟨th, Table.mem_of_get Thread.id hth, hclear⟩
  have hused := h.used
  omega

/-- Another call, unless there are `n` of its kind. -/
theorem Within.spawn (h : Within contends clear used n cfg) {i : ℕ} {k : K} {p : Proc C R ε α}
    (hfresh : cfg.thread i = none) (hclear : clear p = false)
    (hlimit : contends k = true → cfg.underWay contends < n) :
    Within contends clear used n (cfg.spawn i k p) := by
  constructor
  · rw [Config.underWay, Config.countP_spawn hfresh, ← Config.underWay]
    have hle := h.underWay
    split
    · rename_i hnew
      exact hlimit (Bool.and_eq_true_iff.mp hnew).1
    · exact hle
  · rw [Config.cleared, Config.countP_spawn hfresh, ← Config.cleared, hclear, Bool.and_false]
    exact h.used

/-- A step that takes no more than the call had seen free, or after which nothing
is taken. -/
theorem Within.resume (h : Within contends clear used n cfg)
    (hlive : ∀ p, clear p = true → p.isDone = false) {i : ℕ} {th : Thread K C R ε α}
    (hth : cfg.thread i = some th) {c : C} {next : Except ε (R c) → Proc C R ε α}
    (hproc : th.proc = .await c next) {r : Except ε (R c × σ)}
    (hstep : used (after r cfg.state) +
        (if (contends th.call && clear (next (reply r))) = true then 1 else 0) ≤
      used cfg.state + (if (contends th.call && clear th.proc) = true then 1 else 0) ∨
      used (after r cfg.state) = 0) :
    Within contends clear used n (cfg.resume th next r) := by
  have hunder : (cfg.resume th next r).underWay contends ≤ n := by
    have hcount := Config.countP_resume hth next r fun th => contends th.call && !th.proc.isDone
    have hle := h.underWay
    have hrunning : th.proc.isDone = false := by
      rw [hproc]
      rfl
    simp only [hrunning, Bool.not_false, Bool.and_true] at hcount
    unfold Config.underWay at hle ⊢
    cases hc : contends th.call with
    | false =>
      rw [hc] at hcount
      simp only [Bool.false_and, Bool.false_eq_true, if_false] at hcount
      omega
    | true =>
      rw [hc] at hcount
      simp only [if_true] at hcount
      split at hcount <;> omega
  refine ⟨hunder, ?_⟩
  rcases hstep with hstep | hzero
  · have hcount := Config.countP_resume hth next r fun th => contends th.call && clear th.proc
    have hused := h.used
    unfold Config.cleared at hused ⊢
    rw [Config.resume_state]
    simp only at hcount
    omega
  · have hcleared : (cfg.resume th next r).cleared contends clear ≤
        (cfg.resume th next r).underWay contends := cleared_le_underWay hlive
    rw [Config.resume_state, hzero]
    omega

end Within

end Async
