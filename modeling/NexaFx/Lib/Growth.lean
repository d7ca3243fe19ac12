import NexaFx.Lib.Pool

/-!
# States that only grow

An order on states in which no step of any call goes back, when a call writes
what it read earlier and relies on the others to keep it.

* `Proc.Grows` — whatever the others do within the order, each step of the call
  stays within it;
* `Reach.grows` — then so does every run.
-/

namespace Async

variable {K C : Type} {R : C → Type} {ε σ α β : Type}

/-- Whatever the others do within `le`, each step of the call stays within it. -/
def Proc.Grows (exec : Exec C R ε σ) (le : σ → σ → Prop) : Proc C R ε α → σ → Prop
  | .done _, _ => True
  | .await c next, s => ∀ s', le s s' →
      (∀ a s'', exec c s' = .ok (a, s'') → le s' s'' ∧ (next (.ok a)).Grows exec le s'') ∧
      ∀ e, (next (.error e)).Grows exec le s'

namespace Proc

section Grows

variable {exec : Exec C R ε σ} {le : σ → σ → Prop} {s s' : σ}

theorem Grows.later (htrans : ∀ s₁ s₂ s₃, le s₁ s₂ → le s₂ s₃ → le s₁ s₃) {p : Proc C R ε α}
    (h : p.Grows exec le s) (hle : le s s') : p.Grows exec le s' := by
  cases p with
  | done r => trivial
  | await c next => exact fun t hlt => h t (htrans _ _ _ hle hlt)

/-- One command, and what follows it. -/
theorem grows_call_bind {c : C} {k : R c → Proc C R ε α}
    (h : ∀ s', le s s' → ∀ a s'', exec c s' = .ok (a, s'') → le s' s'' ∧ (k a).Grows exec le s'') :
    ((Proc.call c).bind k).Grows exec le s :=
  fun s' hle => ⟨h s' hle, fun _ => trivial⟩

theorem grows_rejectWhen_bind {c : Prop} [Decidable c] {e : ε} {k : Unit → Proc C R ε α}
    (h : ¬ c → (k ()).Grows exec le s) : ((rejectWhen c e).bind k).Grows exec le s := by
  unfold rejectWhen
  split
  · trivial
  · rename_i hc
    exact h hc

/-- A call that stays within the order whatever it relies on. -/
theorem grows_of_issues {P : C → Prop} {p : Proc C R ε α} (hp : p.Issues P)
    (hP : ∀ c s a s', P c → exec c s = .ok (a, s') → le s s') : p.Grows exec le s := by
  induction p generalizing s with
  | done r => trivial
  | await c next ih =>
    exact fun s' _ => ⟨fun a s'' hexec => ⟨hP c s' a s'' hp.1 hexec, ih _ (hp.2 _)⟩,
      fun e => ih _ (hp.2 _)⟩

/-- A part that stays within the order whoever runs it, and what follows it. -/
theorem grows_bind_of_issues (htrans : ∀ s₁ s₂ s₃, le s₁ s₂ → le s₂ s₃ → le s₁ s₃)
    {P : C → Prop} {p : Proc C R ε α} {k : α → Proc C R ε β} (hp : p.Issues P)
    (hP : ∀ c s a s', P c → exec c s = .ok (a, s') → le s s')
    (hk : ∀ a, (k a).Grows exec le s) : (p.bind k).Grows exec le s := by
  induction p generalizing s with
  | done r =>
    cases r with
    | ok a => exact hk a
    | error e => trivial
  | await c next ih =>
    intro s' hle
    constructor
    · intro a s'' hexec
      have hstep := hP c s' a s'' hp.1 hexec
      exact ⟨hstep, ih _ (hp.2 _) fun a => (hk a).later htrans (htrans _ _ _ hle hstep)⟩
    · exact fun e => ih _ (hp.2 _) fun a => (hk a).later htrans hle

/-- What is done with the result does not matter when it takes no command. -/
theorem grows_bind_done {p : Proc C R ε α} (f : α → β) (h : p.Grows exec le s) :
    (p.bind fun a => .done (.ok (f a))).Grows exec le s := by
  induction p generalizing s with
  | done r => cases r <;> trivial
  | await c next ih =>
    intro s' hle
    obtain ⟨hok, herror⟩ := h s' hle
    exact ⟨fun a s'' hexec => ⟨(hok a s'' hexec).1, ih _ (hok a s'' hexec).2⟩,
      fun e => ih _ (herror e)⟩

end Grows

end Proc

section Runs

variable {S : System K C R ε σ α} {D : Discipline K C R ε σ α} {le : σ → σ → Prop}
  {cfg₀ cfg cfg' : Config K C R ε σ α}

/-- The state grows, and all calls see to it that it goes on. -/
theorem Reach.grows_from (hrefl : ∀ s, le s s) (htrans : ∀ s₁ s₂ s₃, le s₁ s₂ → le s₂ s₃ → le s₁ s₃)
    (hprog : ∀ i k s, (S.prog i k).Grows S.exec le s)
    (hall : ∀ i th, cfg.thread i = some th → th.proc.Grows S.exec le cfg.state)
    (h : Reach S D cfg cfg') : le cfg.state cfg'.state ∧
      ∀ i th, cfg'.thread i = some th → th.proc.Grows S.exec le cfg'.state := by
  refine Reach.invariant (I := fun cfg' => le cfg.state cfg'.state ∧
    ∀ i th, cfg'.thread i = some th → th.proc.Grows S.exec le cfg'.state) ⟨hrefl _, hall⟩ ?_ ?_ h
  · intro cfg₁ i k hI _ _
    refine ⟨hI.1, fun j th hth => ?_⟩
    rcases Config.thread_spawn_cases hth with ⟨rfl, rfl⟩ | hold
    · exact hprog j k _
    · exact hI.2 j th hold
  · intro cfg₁ i fault th c next hI hth hproc _ _ _
    have hself := hI.2 i th hth
    rw [hproc] at hself
    obtain ⟨hok, herror⟩ := hself cfg₁.state (hrefl _)
    have hstep : le cfg₁.state (after (outcome fault (S.exec c cfg₁.state)) cfg₁.state) ∧
        (next (reply (outcome fault (S.exec c cfg₁.state)))).Grows S.exec le
          (after (outcome fault (S.exec c cfg₁.state)) cfg₁.state) := by
      cases hres : outcome fault (S.exec c cfg₁.state) with
      | error e => exact ⟨hrefl _, herror e⟩
      | ok r => exact hok r.1 r.2 (outcome_eq_ok hres).2
    refine ⟨htrans _ _ _ hI.1 hstep.1, fun j th' hth' => ?_⟩
    rcases Config.thread_resume_cases hth hth' with ⟨rfl, rfl⟩ | hold
    · exact hstep.2
    · exact (hI.2 j th' hold).later htrans hstep.1

/-- **Growth.** Between any two moments of a run. -/
theorem Reach.grows (hrefl : ∀ s, le s s) (htrans : ∀ s₁ s₂ s₃, le s₁ s₂ → le s₂ s₃ → le s₁ s₃)
    (hprog : ∀ i k s, (S.prog i k).Grows S.exec le s) (hnil : cfg₀.threads = [])
    (h : Reach S D cfg₀ cfg) (h' : Reach S D cfg cfg') : le cfg.state cfg'.state := by
  have hnone : ∀ i th, cfg₀.thread i = some th → th.proc.Grows S.exec le cfg₀.state := by
    intro i th hth
    rw [Config.thread, hnil] at hth
    cases hth
  exact (h'.grows_from hrefl htrans hprog (h.grows_from hrefl htrans hprog hnone).2).1

end Runs

end Async
