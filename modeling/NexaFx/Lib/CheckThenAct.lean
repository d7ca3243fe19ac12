import NexaFx.Lib.Turns

/-!
# Check, then act

A call checks that the state is as it should be and acts later, when others may
have changed it. `CheckedActs` says what it takes for the check to hold still at
the act, and of everything that was acted on: nothing undoes it while a call that
has checked may yet act, nor once some call has acted. `Reach.checked` is the
rule; no call has to take a lock for it.
-/

namespace Async

variable {K C : Type} {R : C → Type} {ε σ α β : Type}

/-- After a check that fails, or finds the state otherwise, the call does not act
before it checks again. -/
def Rechecks (exec : Exec C R ε σ) (checks acts : C → Bool) (replies : (c : C) → R c → Prop)
    (good : σ → Prop) (c : C) (next : Except ε (R c) → Proc C R ε α) : Prop :=
  checks c = true →
    (∀ a s s', exec c s = .ok (a, s') → good s ∨ (next (.ok a)).Aside acts checks replies) ∧
    ∀ e, (next (.error e)).Aside acts checks replies

/-- `checks` look whether `good` holds, `acts` rely on it, and `acted` tells that
one has been carried out. -/
structure CheckedActs (S : System K C R ε σ α) (D : Discipline K C R ε σ α) (checks acts : C → Bool)
    (replies : (c : C) → R c → Prop) (good acted : σ → Prop) : Prop where
  /-- Before its first check, a call does not act. -/
  fresh : ∀ i k, (S.prog i k).Aside acts checks replies
  checked : ∀ i k, (S.prog i k).Always replies fun c next =>
    Rechecks S.exec checks acts replies good c next
  reads : ∀ c s a s', checks c = true → S.exec c s = .ok (a, s') → s' = s
  replied : ∀ c s a s', S.exec c s = .ok (a, s') → replies c a
  /-- Only an act makes the state one that was acted on. -/
  onlyActs : ∀ c s a s', S.exec c s = .ok (a, s') → acted s' → acted s ∨ acts c = true
  /-- What was checked stays so while it matters. -/
  keeps : ∀ cfg th c a s', D.onStep cfg th c false → S.exec c cfg.state = .ok (a, s') →
    good cfg.state → (acted cfg.state ∨ ∃ j thj, cfg.thread j = some thj ∧
      ¬ thj.proc.Aside acts checks replies) → good s'

variable {S : System K C R ε σ α} {D : Discipline K C R ε σ α} {checks acts : C → Bool}
  {replies : (c : C) → R c → Prop} {good acted : σ → Prop} {cfg₀ cfg : Config K C R ε σ α}

/-- Handing on the result is no act. -/
theorem rechecks_bind_done {exec : Exec C R ε σ} {p : Proc C R ε β} (g : β → Except ε α)
    (h : p.Always replies fun c next => Rechecks exec checks acts replies good c next) :
    (p.bind fun b => .done (g b)).Always replies fun c next =>
      Rechecks exec checks acts replies good c next := by
  induction h with
  | done r => cases r <;> exact .done _
  | await here ok error ihok iherror =>
    refine .await (fun hc => ⟨?_, ?_⟩) ihok iherror
    · intro a s s' hexec
      refine ((here hc).1 a s s' hexec).imp_right fun haside => ?_
      exact Proc.aside_bind haside fun _ => trivial
    · intro e
      exact Proc.aside_bind ((here hc).2 e) fun _ => trivial

/-- **Check, then act.** -/
theorem Reach.checked (h : Reach S D cfg₀ cfg) (X : CheckedActs S D checks acts replies good acted)
    (hnil : cfg₀.threads = []) (h0 : acted cfg₀.state → good cfg₀.state) :
    (acted cfg.state → good cfg.state) ∧
    ∀ i th, cfg.thread i = some th → th.proc.Aside acts checks replies ∨ good cfg.state := by
  have hall := h.invariant_always (I := fun cfg => (acted cfg.state → good cfg.state) ∧
      ∀ i th, cfg.thread i = some th → th.proc.Aside acts checks replies ∨ good cfg.state)
    (G := replies) (Q := fun _ _ c next => Rechecks S.exec checks acts replies good c next)
    ⟨h0, ?_⟩ hnil X.checked ?_ ?_
  · exact hall.1
  · intro i th hth
    rw [Config.thread, hnil] at hth
    cases hth
  · intro cfg i k hI _ _
    refine ⟨hI.1, fun j th hth => ?_⟩
    rcases Config.thread_spawn_cases hth with ⟨rfl, rfl⟩ | hold
    · exact Or.inl (X.fresh j k)
    · exact hI.2 j th hold
  · intro cfg i fault th c next hI hth hproc hchecked hD
    have hhere := hI.2 i th hth
    rw [hproc] at hhere
    cases hout : outcome fault (S.exec c cfg.state) with
    | error e =>
      refine ⟨⟨hI.1, fun j thj hthj => ?_⟩, fun a s' hok => by cases hok⟩
      rcases Config.thread_resume_cases hth hthj with ⟨rfl, rfl⟩ | hold
      · refine hhere.imp_left fun haside => ?_
        cases hc : checks c with
        | true => exact (hchecked hc).2 e
        | false => exact (haside.2 hc).2 e
      · exact hI.2 j thj hold
    | ok r =>
      obtain ⟨a, s'⟩ := r
      rw [hout] at hD
      have hexec := (outcome_eq_ok hout).2
      have hreplied := X.replied c _ a s' hexec
      refine ⟨?_, fun a' s'' hok => by cases hok; exact hreplied⟩
      by_cases hmatters : acted cfg.state ∨ ∃ j thj, cfg.thread j = some thj ∧
          ¬ thj.proc.Aside acts checks replies
      · -- what was checked still holds
        have hgood : good cfg.state := by
          rcases hmatters with hacted | ⟨j, thj, hthj, hnot⟩
          · exact hI.1 hacted
          · exact (hI.2 j thj hthj).resolve_left hnot
        have hgood' := X.keeps cfg th c a s' hD hexec hgood hmatters
        exact ⟨fun _ => hgood', fun _ _ _ => Or.inr hgood'⟩
      · obtain ⟨hnot, hnone⟩ := not_or.mp hmatters
        have hall : ∀ j thj, cfg.thread j = some thj → thj.proc.Aside acts checks replies := by
          intro j thj hthj
          by_contra hj
          exact hnone ⟨j, thj, hthj, hj⟩
        have haside := hall i th hth
        rw [hproc] at haside
        refine ⟨fun hacted => ?_, fun j thj hthj => ?_⟩
        · rcases X.onlyActs c _ a s' hexec hacted with hbefore | hacts
          · exact absurd hbefore hnot
          · rw [haside.1] at hacts
            cases hacts
        · rcases Config.thread_resume_cases hth hthj with ⟨rfl, rfl⟩ | hold
          · cases hc : checks c with
            | true =>
              rcases (hchecked hc).1 a _ s' hexec with hgood | hnext
              · refine Or.inr ?_
                show good s'
                rw [X.reads c _ a s' hc hexec]
                exact hgood
              · exact Or.inl hnext
            | false => exact Or.inl ((haside.2 hc).1 a hreplied)
          · exact Or.inl (hall j thj hold)

end Async
