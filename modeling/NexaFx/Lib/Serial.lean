import NexaFx.Lib.RelyGuarantee

/-!
# Calls one after the other

Calls that do not overlap: each runs from its first step to its end before the
next is made, and any of its awaits may fail. Between two awaits only the
surroundings move, such as a clock.

* `Proc.Ends` — how one call may end, step by step; every step obeys a
  condition `D` on the command, on whether it fails and on the state before it;
* `ends_of_checks` — a run that is evaluated is such an end;
* `Ends.wp` — weakest preconditions over a view that the surroundings do not
  show in are sound for it;
* `Serial` — the states that whole sequences of calls lead to, and
  `Serial.invariant`, the rule for what holds in all of them.
-/

namespace Async

variable {K C : Type} {R : C → Type} {ε σ α β V : Type}

-- ---------------------------------------------------------------------------
-- One call
-- ---------------------------------------------------------------------------

/-- What a call runs in: the meaning of the commands, which awaits may fail on
their own account, and what may happen between two awaits. -/
structure Surroundings (C : Type) (R : C → Type) (ε σ : Type) where
  exec : Exec C R ε σ
  mayFail : C → Bool
  drifts : σ → σ → Prop

namespace Proc

/-- The call may end with `r` in the state `s'`, by steps that obey `D`. -/
inductive Ends (E : Surroundings C R ε σ) (D : C → Bool → σ → Prop) :
    Proc C R ε α → σ → Except ε α → σ → Prop
  | done (r : Except ε α) (s : σ) : Ends E D (.done r) s r s
  | drift {p : Proc C R ε α} {s s' s'' : σ} {r : Except ε α} (moved : E.drifts s s')
      (rest : Ends E D p s' r s'') : Ends E D p s r s''
  | await {c : C} {next : Except ε (R c) → Proc C R ε α} {s s' : σ} {r : Except ε α}
      (fault : Option ε) (possible : fault = none ∨ E.mayFail c = true)
      (obeys : D c (failed (outcome fault (E.exec c s))) s)
      (rest : Ends E D (next (reply (outcome fault (E.exec c s))))
        (after (outcome fault (E.exec c s)) s) r s') : Ends E D (.await c next) s r s'

/-- The steps of the run with the faults `φ` pass the check. -/
def checks (exec : Exec C R ε σ) (φ : C → Option ε) (check : C → Bool → σ → Bool) :
    Proc C R ε α → σ → Bool
  | .done _, _ => true
  | .await c next, s =>
    match outcome (φ c) (exec c s) with
    | .ok (a, s') => check c false s && checks exec φ check (next (.ok a)) s'
    | .error e => check c true s && checks exec φ check (next (.error e)) s

variable {E : Surroundings C R ε σ} {D : C → Bool → σ → Prop}

theorem ends_of_checks {φ : C → Option ε} {check : C → Bool → σ → Bool} {p : Proc C R ε α} {s : σ}
    (hφ : ∀ c, φ c = none ∨ E.mayFail c = true) (hcheck : ∀ c f s, check c f s = true → D c f s)
    (h : p.checks E.exec φ check s = true) :
    p.Ends E D s (p.run E.exec φ s).1 (p.run E.exec φ s).2 := by
  induction p generalizing s with
  | done r => exact .done r s
  | await c next ih =>
    rw [checks] at h
    rw [run_await]
    cases hout : outcome (φ c) (E.exec c s) with
    | ok r =>
      obtain ⟨a, s'⟩ := r
      rw [hout] at h
      obtain ⟨hhere, hrest⟩ := Bool.and_eq_true_iff.mp h
      refine .await (φ c) (hφ c) ?_ ?_
      · rw [hout]
        exact hcheck _ _ _ hhere
      · rw [hout]
        exact ih _ hrest
    | error e =>
      rw [hout] at h
      obtain ⟨hhere, hrest⟩ := Bool.and_eq_true_iff.mp h
      refine .await (φ c) (hφ c) ?_ ?_
      · rw [hout]
        exact hcheck _ _ _ hhere
      · rw [hout]
        exact ih _ hrest

/-- Without a condition, every run is such an end. -/
theorem ends_run {φ : C → Option ε} (hφ : ∀ c, φ c = none ∨ E.mayFail c = true)
    (p : Proc C R ε α) (s : σ) :
    p.Ends E (fun _ _ _ => True) s (p.run E.exec φ s).1 (p.run E.exec φ s).2 := by
  refine ends_of_checks hφ (fun _ _ _ (_ : true = true) => trivial) ?_
  induction p generalizing s with
  | done r => rfl
  | await c next ih =>
    rw [checks]
    split
    · exact ih _ _
    · exact ih _ _

/-- **Soundness.** What is shown of the rest of a call await by await holds of
every way it may end. -/
theorem Ends.wp {L : Logic C R ε σ V} {post : Except ε α → V → Prop} (hexec : L.exec = E.exec)
    (hdrift : ∀ s s', E.drifts s s' → L.view s' = L.view s)
    (hallows : ∀ c s, D c false s → L.allows c s)
    (hfails : ∀ c s, D c true s → (E.mayFail c = true ∨ ∃ e, E.exec c s = .error e) →
      L.fails c s)
    {p : Proc C R ε α} {s s' : σ} {r : Except ε α} (h : p.Ends E D s r s')
    (hwp : p.wp L post (L.view s)) : post r (L.view s') := by
  induction h with
  | done r s => exact hwp
  | drift moved rest ih =>
    rw [hdrift _ _ moved] at ih
    exact ih hwp
  | @await c next s s' r fault possible obeys rest ih =>
    have hhere := hwp s rfl
    cases hout : outcome fault (E.exec c s) with
    | ok res =>
      obtain ⟨a, s₁⟩ := res
      rw [hout] at obeys ih
      have hcarried := (outcome_eq_ok hout).2
      rw [← hexec] at hcarried
      exact ih (hhere.1 a s₁ (hallows c s obeys) hcarried).2
    | error e =>
      rw [hout] at obeys ih
      refine ih (hhere.2 (hfails c s obeys ?_) e)
      cases fault with
      | none => exact Or.inr ⟨e, hout⟩
      | some e' => exact Or.inl (possible.resolve_left (by simp))

theorem Ends.mono {D' : C → Bool → σ → Prop} (himp : ∀ c f s, D c f s → D' c f s)
    {p : Proc C R ε α} {s s' : σ} {r : Except ε α} (h : p.Ends E D s r s') : p.Ends E D' s r s' := by
  induction h with
  | done r s => exact .done r s
  | drift moved rest ih => exact .drift moved ih
  | await fault possible obeys rest ih => exact .await fault possible (himp _ _ _ obeys) ih

/-- What each step leaves holds throughout the call. -/
theorem Ends.within {L : Logic C R ε σ V} {post : Except ε α → V → Prop} {I : V → Prop}
    (hexec : L.exec = E.exec) (hdrift : ∀ s s', E.drifts s s' → L.view s' = L.view s)
    (hallows : ∀ c s, L.allows c s) (hfails : ∀ c s, L.fails c s)
    (hframe : ∀ s s', L.frame s s' → I (L.view s')) {p : Proc C R ε α} {s s' : σ}
    {r : Except ε α} (h : p.Ends E D s r s') (hwp : p.wp L post (L.view s)) (hs : I (L.view s)) :
    p.Ends E (fun c f x => D c f x ∧ I (L.view x)) s r s' ∧ I (L.view s') := by
  induction h with
  | done r s => exact ⟨.done r s, hs⟩
  | drift moved rest ih =>
    rw [hdrift _ _ moved] at ih
    obtain ⟨hrest, hend⟩ := ih hwp hs
    exact ⟨.drift moved hrest, hend⟩
  | @await c next s s' r fault possible obeys rest ih =>
    have hhere := hwp s rfl
    suffices hnext : (next (reply (outcome fault (E.exec c s)))).wp L post
        (L.view (after (outcome fault (E.exec c s)) s)) ∧
        I (L.view (after (outcome fault (E.exec c s)) s)) by
      obtain ⟨hrest, hend⟩ := ih hnext.1 hnext.2
      exact ⟨.await fault possible ⟨obeys, hs⟩ hrest, hend⟩
    cases hout : outcome fault (E.exec c s) with
    | ok res =>
      have hcarried := (outcome_eq_ok hout).2
      rw [← hexec] at hcarried
      obtain ⟨hkeeps, hnext⟩ := hhere.1 res.1 res.2 (hallows c s) hcarried
      exact ⟨hnext, hframe _ _ hkeeps⟩
    | error e => exact ⟨hhere.2 (hfails c s) e, hs⟩

/-- Every state that a call goes through comes before the one it ends in. -/
theorem Ends.before {le : σ → σ → Prop} (hrefl : ∀ s, le s s)
    (htrans : ∀ s₁ s₂ s₃, le s₁ s₂ → le s₂ s₃ → le s₁ s₃)
    (hdrift : ∀ s s', E.drifts s s' → le s s')
    (hstep : ∀ c s a s', E.exec c s = .ok (a, s') → le s s')
    {p : Proc C R ε α} {s s' : σ} {r : Except ε α} (h : p.Ends E D s r s') :
    p.Ends E (fun c f x => D c f x ∧ le x s') s r s' ∧ le s s' := by
  induction h with
  | done r s => exact ⟨.done r s, hrefl s⟩
  | drift moved rest ih => exact ⟨.drift moved ih.1, htrans _ _ _ (hdrift _ _ moved) ih.2⟩
  | @await c next s s' r fault possible obeys rest ih =>
    have hle : le s s' := by
      cases hout : outcome fault (E.exec c s) with
      | ok res =>
        rw [hout] at ih
        exact htrans _ _ _ (hstep c s res.1 res.2 (outcome_eq_ok hout).2) ih.2
      | error e =>
        rw [hout] at ih
        exact ih.2
    exact ⟨.await fault possible ⟨obeys, hle⟩ ih.1, hle⟩

/-- What every command keeps, a call keeps. -/
theorem Ends.keeps {I : σ → Prop} (hdrift : ∀ s s', E.drifts s s' → I s → I s')
    (hstep : ∀ c s a s', E.exec c s = .ok (a, s') → I s → I s')
    {p : Proc C R ε α} {s s' : σ} {r : Except ε α} (h : p.Ends E D s r s') (hs : I s) : I s' := by
  induction h with
  | done r s => exact hs
  | drift moved rest ih => exact ih (hdrift _ _ moved hs)
  | @await c next s s' r fault possible obeys rest ih =>
    refine ih ?_
    cases hout : outcome fault (E.exec c s) with
    | ok res => exact hstep c s res.1 res.2 (outcome_eq_ok hout).2 hs
    | error e => exact hs

end Proc

-- ---------------------------------------------------------------------------
-- Sequences of calls
-- ---------------------------------------------------------------------------

/-- The states that sequences of calls lead to from `s₀`: `mayCall` says which
call may be made in which state under which identity. -/
inductive Serial (E : Surroundings C R ε σ) (prog : ℕ → K → Proc C R ε α)
    (mayCall : σ → ℕ → K → Prop) (D : ℕ → K → C → Bool → σ → Prop) (s₀ : σ) : σ → Prop
  | start : Serial E prog mayCall D s₀ s₀
  | drift {s s' : σ} (before : Serial E prog mayCall D s₀ s) (moved : E.drifts s s') :
      Serial E prog mayCall D s₀ s'
  | call {s s' : σ} {r : Except ε α} (before : Serial E prog mayCall D s₀ s) (i : ℕ) (k : K)
      (may : mayCall s i k) (ends : (prog i k).Ends E (D i k) s r s') :
      Serial E prog mayCall D s₀ s'

/-- **Invariants of sequences.** -/
theorem Serial.invariant {E : Surroundings C R ε σ} {prog : ℕ → K → Proc C R ε α}
    {mayCall : σ → ℕ → K → Prop} {D : ℕ → K → C → Bool → σ → Prop} {s₀ s : σ} {I : σ → Prop}
    (hstart : I s₀) (hdrift : ∀ s s', E.drifts s s' → I s → I s')
    (hcall : ∀ i k s r s', mayCall s i k → (prog i k).Ends E (D i k) s r s' → I s → I s')
    (h : Serial E prog mayCall D s₀ s) : I s := by
  induction h with
  | start => exact hstart
  | drift _ moved ih => exact hdrift _ _ moved ih
  | call _ i k may ends ih => exact hcall i k _ _ _ may ends ih

/-- What every command keeps, a sequence keeps. -/
theorem Serial.keeps {E : Surroundings C R ε σ} {prog : ℕ → K → Proc C R ε α}
    {mayCall : σ → ℕ → K → Prop} {D : ℕ → K → C → Bool → σ → Prop} {s₀ s : σ} {I : σ → Prop}
    (hstart : I s₀) (hdrift : ∀ s s', E.drifts s s' → I s → I s')
    (hstep : ∀ c s a s', E.exec c s = .ok (a, s') → I s → I s')
    (h : Serial E prog mayCall D s₀ s) : I s :=
  h.invariant hstart hdrift fun _ _ _ _ _ _ ends => ends.keeps hdrift hstep

end Async
