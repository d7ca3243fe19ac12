import NexaFx.Lib.Exclusive

/-!
# Custody

In a critical section some calls are inside from their first step to their end.
Here a call decides with its first step, by what it finds, whether it takes a
thing into its custody, and has done with it when no command that is left to it
concerns the thing any more. Such a call is *clear*: all it can still issue is
`away`.

* `Proc.Custody` — a call that has custody keeps `safe`, shows in the state that
  the thing is `held`, and leaves it at `rest` as soon as it is clear;
* `Reach.custody` — when a call takes custody only while all others are clear,
  then `safe` holds throughout, and `rest` whenever all calls are clear.
-/

namespace Async

variable {K C : Type} {R : C → Type} {ε σ α β : Type}

/-- What is in custody: a section, the commands that do not concern it, and how
it shows in the state that a call has it. -/
structure Thing (K C : Type) (R : C → Type) (ε σ : Type) extends Section C R ε σ where
  away : C → Prop
  held : K → σ → Prop

namespace Proc

/-- Among others that keep to the rely, the call `me` has custody, and ends with
`post`. -/
def Custody (T : Thing K C R ε σ) (me : K) (post : Except ε α → σ → Prop) : Proc C R ε α → σ → Prop
  | .done r, s => post r s
  | .await c next, s => ∀ s', T.rely s s' → T.safe s' ∧ T.held me s' ∧
      ((Proc.await c next).Issues T.away → T.rest s') ∧
      (∀ a s'', T.allows c false s' → T.exec c s' = .ok (a, s'') →
        (next (.ok a)).Custody T me post s'') ∧
      ∀ e, T.allows c true s' → (T.mayFail c = true ∨ T.exec c s' = .error e) →
        (next (.error e)).Custody T me post s'

section Custody

variable {T : Thing K C R ε σ} {me : K} {s : σ} {A : σ → Prop}

theorem Custody.later (htrans : ∀ s₁ s₂ s₃, T.rely s₁ s₂ → T.rely s₂ s₃ → T.rely s₁ s₃)
    {post : Except ε α → σ → Prop} (hpost : ∀ r s s', post r s → T.rely s s' → post r s')
    {p : Proc C R ε α} {s' : σ} (h : p.Custody T me post s) (hrely : T.rely s s') :
    p.Custody T me post s' := by
  cases p with
  | done r => exact hpost r s s' h hrely
  | await c next => exact fun s'' hrely' => h s'' (htrans _ _ _ hrely hrely')

theorem custody_mono {post post' : Except ε α → σ → Prop} (himp : ∀ r s, post r s → post' r s)
    {p : Proc C R ε α} (h : p.Custody T me post s) : p.Custody T me post' s := by
  induction p generalizing s with
  | done r => exact himp r s h
  | await c next ih =>
    intro s' hrely
    obtain ⟨hsafe, hheld, hclear, hok, herror⟩ := h s' hrely
    exact ⟨hsafe, hheld, hclear, fun a s'' hallow hexec => ih _ (hok a s'' hallow hexec),
      fun e hallow hcan => ih _ (herror e hallow hcan)⟩

theorem issues_of_bind {P : C → Prop} {p : Proc C R ε α} {k : α → Proc C R ε β}
    (h : (p.bind k).Issues P) : p.Issues P := by
  induction p with
  | done r => trivial
  | await c next ih => exact ⟨h.1, fun r => ih r (h.2 r)⟩

theorem issues_of_attempt {P : C → Prop} {p : Proc C R ε α} (h : p.attempt.Issues P) :
    p.Issues P := by
  induction p with
  | done r => trivial
  | await c next ih => exact ⟨h.1, fun r => ih r (h.2 r)⟩

/-- Sequential composition. -/
theorem custody_bind {p : Proc C R ε α} {k : α → Proc C R ε β} {post : Except ε β → σ → Prop}
    (h : p.Custody T me (fun r s' => match r with
      | .ok a => (k a).Custody T me post s'
      | .error e => post (.error e) s') s) : (p.bind k).Custody T me post s := by
  induction p generalizing s with
  | done r => cases r <;> exact h
  | await c next ih =>
    intro s' hrely
    obtain ⟨hsafe, hheld, hclear, hok, herror⟩ := h s' hrely
    exact ⟨hsafe, hheld, fun hissues => hclear (issues_of_bind hissues),
      fun a s'' hallow hexec => ih _ (hok a s'' hallow hexec),
      fun e hallow hcan => ih _ (herror e hallow hcan)⟩

/-- A caught error is a value. -/
theorem custody_attempt {p : Proc C R ε α} {post : Except ε (Except ε α) → σ → Prop}
    (h : p.Custody T me (fun r s' => post (.ok r) s') s) : p.attempt.Custody T me post s := by
  induction p generalizing s with
  | done r => exact h
  | await c next ih =>
    intro s' hrely
    obtain ⟨hsafe, hheld, hclear, hok, herror⟩ := h s' hrely
    exact ⟨hsafe, hheld, fun hissues => hclear (issues_of_attempt hissues),
      fun a s'' hallow hexec => ih _ (hok a s'' hallow hexec),
      fun e hallow hcan => ih _ (herror e hallow hcan)⟩

/-- One await, with `A` before it whatever the others do. The thing is at rest
if the rest of the call is clear. -/
theorem custody_await {c : C} {next : Except ε (R c) → Proc C R ε α}
    {post : Except ε α → σ → Prop} (hs : A s)
    (hstable : ∀ s s', A s → T.rely s s' → A s') (hsafe : ∀ s, A s → T.safe s)
    (hheld : ∀ s, A s → T.held me s)
    (hclear : ∀ s, A s → (Proc.await c next).Issues T.away → T.rest s)
    (hok : ∀ s a s', A s → T.allows c false s → T.exec c s = .ok (a, s') →
      (next (.ok a)).Custody T me post s')
    (herror : ∀ s e, A s → T.allows c true s →
      (T.mayFail c = true ∨ T.exec c s = .error e) → (next (.error e)).Custody T me post s) :
    (Proc.await c next).Custody T me post s := by
  intro s' hrely
  have hA := hstable s s' hs hrely
  exact ⟨hsafe s' hA, hheld s' hA, hclear s' hA,
    fun a s'' hallow hexec => hok s' a s'' hA hallow hexec,
    fun e hallow hcan => herror s' e hA hallow hcan⟩

theorem custody_call {c : C} {post : Except ε (R c) → σ → Prop} (hs : A s)
    (hstable : ∀ s s', A s → T.rely s s' → A s') (hsafe : ∀ s, A s → T.safe s)
    (hheld : ∀ s, A s → T.held me s) (hclear : ∀ s, A s → T.rest s ∨ ¬ T.away c)
    (hok : ∀ s a s', A s → T.allows c false s → T.exec c s = .ok (a, s') → post (.ok a) s')
    (herror : ∀ s e, A s → T.allows c true s →
      (T.mayFail c = true ∨ T.exec c s = .error e) → post (.error e) s) :
    (Proc.call c : Proc C R ε (R c)).Custody T me post s :=
  custody_await hs hstable hsafe hheld
    (fun s hA hissues => (hclear s hA).resolve_right (not_not.mpr hissues.1)) hok herror

/-- `await c` and go on; the thing is at rest, or the rest of the call is not
clear. -/
theorem custody_call_bind {c : C} {k : R c → Proc C R ε β} {post : Except ε β → σ → Prop}
    (hs : A s) (hstable : ∀ s s', A s → T.rely s s' → A s') (hsafe : ∀ s, A s → T.safe s)
    (hheld : ∀ s, A s → T.held me s)
    (hclear : ∀ s, A s → T.rest s ∨ ¬ T.away c ∨ ∃ a, ¬ (k a).Issues T.away)
    (hok : ∀ s a s', A s → T.allows c false s → T.exec c s = .ok (a, s') →
      (k a).Custody T me post s')
    (herror : ∀ s e, A s → T.allows c true s →
      (T.mayFail c = true ∨ T.exec c s = .error e) → post (.error e) s) :
    ((Proc.call c).bind k).Custody T me post s := by
  refine custody_await hs hstable hsafe hheld (fun s hA hissues => ?_) hok herror
  rcases hclear s hA with hrest | hhere | ⟨a, hlater⟩
  · exact hrest
  · exact absurd hissues.1 hhere
  · exact absurd (hissues.2 (.ok a)) hlater

/-- `await c` inside a `try`. -/
theorem custody_try_bind {c : C} {k : Except ε (R c) → Proc C R ε β}
    {post : Except ε β → σ → Prop} (hs : A s) (hstable : ∀ s s', A s → T.rely s s' → A s')
    (hsafe : ∀ s, A s → T.safe s) (hheld : ∀ s, A s → T.held me s)
    (hclear : ∀ s, A s → T.rest s ∨ ¬ T.away c)
    (hok : ∀ s a s', A s → T.allows c false s → T.exec c s = .ok (a, s') →
      (k (.ok a)).Custody T me post s')
    (herror : ∀ s e, A s → T.allows c true s →
      (T.mayFail c = true ∨ T.exec c s = .error e) → (k (.error e)).Custody T me post s) :
    ((Proc.call c).attempt.bind k).Custody T me post s :=
  custody_await hs hstable hsafe hheld
    (fun s hA hissues => (hclear s hA).resolve_right (not_not.mpr hissues.1)) hok herror

/-- A part of the call that does not concern the thing. -/
theorem custody_away {p : Proc C R ε α} {post : Except ε α → σ → Prop} (hp : p.Issues T.away)
    (haway : ∀ c s a s', T.away c → T.exec c s = .ok (a, s') → T.rely s s') (hs : A s)
    (hstable : ∀ s s', A s → T.rely s s' → A s') (hsafe : ∀ s, A s → T.safe s)
    (hheld : ∀ s, A s → T.held me s) (hrest : ∀ s, A s → T.rest s)
    (hpost : ∀ r s, A s → post r s) : p.Custody T me post s := by
  induction p generalizing s with
  | done r => exact hpost r s hs
  | await c next ih =>
    refine custody_await hs hstable hsafe hheld (fun s hA _ => hrest s hA)
      (fun s a s' hA _ hexec => ?_) fun s e hA _ _ => ih _ (hp.2 _) hA
    exact ih _ (hp.2 _) (hstable s s' hA (haway c s a s' hp.1 hexec))

end Custody

end Proc

-- ---------------------------------------------------------------------------
-- Calls that take custody with their first step
-- ---------------------------------------------------------------------------

/-- All calls that have begun have done with the thing. -/
def Config.Clear (T : Thing K C R ε σ) (inside : K → Bool) (cfg : Config K C R ε σ α) : Prop :=
  ∀ i th, cfg.thread i = some th → inside th.call = true → th.begun = true →
    th.proc.Issues T.away

/-- What has to be shown of a thing among the calls of a server. -/
structure Custodial (S : System K C R ε σ α) (D : Discipline K C R ε σ α) (T : Thing K C R ε σ)
    (inside : K → Bool) (takes : K → σ → Prop) (replies : (c : C) → R c → Prop)
    (outside : ℕ → K → C → Prop) : Prop where
  exec : T.exec = S.exec
  mayFail : T.mayFail = S.mayFail
  refl : ∀ s, T.rely s s
  trans : ∀ s₁ s₂ s₃, T.rely s₁ s₂ → T.rely s₂ s₃ → T.rely s₁ s₃
  safe : ∀ s, T.rest s → T.safe s
  rest : ∀ s s', T.rest s → T.rely s s' → T.rest s'
  away : ∀ c s a s', T.away c → S.exec c s = .ok (a, s') → T.rely s s'
  /-- The first step of a call that takes the thing. -/
  taken : ∀ i k c next s, inside k = true → S.prog i k = .await c next → takes k s → T.rest s →
    (∀ a s', S.exec c s = .ok (a, s') → (next (.ok a)).Custody T k (fun _ => T.rest) s') ∧
      ∀ e, (next (.error e)).Issues T.away
  /-- The first step of a call that leaves it. -/
  left : ∀ i k c next s, inside k = true → S.prog i k = .await c next → ¬ takes k s →
    (∀ a s', S.exec c s = .ok (a, s') → T.rely s s' ∧ (next (.ok a)).Issues T.away) ∧
      ∀ e, (next (.error e)).Issues T.away
  /-- The other calls issue commands that keep to the rely. -/
  replied : ∀ c s a s', S.exec c s = .ok (a, s') → replies c a
  issues : ∀ i k, inside k = false → (S.prog i k).Always replies fun c _ => outside i k c
  others : ∀ i k c s a s', inside k = false → outside i k c → S.exec c s = .ok (a, s') →
    T.rely s s'
  allows : ∀ cfg th c f, inside th.call = true → th.begun = true → D.onStep cfg th c f →
    T.allows c f cfg.state
  /-- The thing is taken when the calls that have begun are clear or cannot have it. -/
  alone : ∀ cfg th c f, inside th.call = true → th.begun = false → D.onStep cfg th c f →
    takes th.call cfg.state → ∀ j th', cfg.thread j = some th' → inside th'.call = true →
      th'.begun = true → ¬ T.held th'.call cfg.state ∨ th'.proc.Issues T.away

section Custodial

variable {S : System K C R ε σ α} {D : Discipline K C R ε σ α} {T : Thing K C R ε σ}
  {inside : K → Bool} {takes : K → σ → Prop} {replies : (c : C) → R c → Prop}
  {outside : ℕ → K → C → Prop} {cfg₀ cfg : Config K C R ε σ α}

/-- All are clear and the thing is at rest, or one call has it. -/
inductive Kept (T : Thing K C R ε σ) (inside : K → Bool) (cfg : Config K C R ε σ α) : Prop
  | free (clear : cfg.Clear T inside) (rest : T.rest cfg.state)
  | kept (i : ℕ) (th : Thread K C R ε α) (here : cfg.thread i = some th)
      (mine : inside th.call = true) (begun : th.begun = true) (custody : th.proc.Custody T th.call (fun _ => T.rest) cfg.state)
      (only : ∀ j th', cfg.thread j = some th' → inside th'.call = true → th'.begun = true →
        j ≠ i → th'.proc.Issues T.away)

/-- When all calls that have begun are clear or cannot have the thing, it is at rest. -/
theorem Kept.at_rest (h : Kept T inside cfg) (hrefl : ∀ s, T.rely s s)
    (hfree : ∀ i th, cfg.thread i = some th → inside th.call = true → th.begun = true →
      ¬ T.held th.call cfg.state ∨ th.proc.Issues T.away) :
    T.rest cfg.state ∧ cfg.Clear T inside := by
  cases h with
  | free hclear hrest => exact ⟨hrest, hclear⟩
  | kept i th hth hmine hbegun hcustody honly =>
    -- the call that has it is clear
    have hthis : th.proc.Issues T.away ∧ T.rest cfg.state := by
      cases hproc : th.proc with
      | done r =>
        rw [hproc] at hcustody
        exact ⟨trivial, hcustody⟩
      | await c next =>
        rw [hproc] at hcustody
        obtain ⟨-, hheld, hrest, -⟩ := hcustody cfg.state (hrefl _)
        have hissues := (hfree i th hth hmine hbegun).resolve_left (not_not.mpr hheld)
        rw [hproc] at hissues
        exact ⟨hissues, hrest hissues⟩
    refine ⟨hthis.2, fun j th' hth' hinside hbegun' => ?_⟩
    by_cases hji : j = i
    · subst hji
      obtain rfl : th = th' := Option.some.inj (hth.symm.trans hth')
      exact hthis.1
    · exact honly j th' hth' hinside hbegun' hji

/-- The step of a call that has the thing. -/
theorem Custodial.goes_on (X : Custodial S D T inside takes replies outside) {fault : Option ε}
    {th : Thread K C R ε α} {c : C} {next : Except ε (R c) → Proc C R ε α}
    (hmine : inside th.call = true) (hbegun : th.begun = true)
    (hfault : fault = none ∨ S.mayFail c = true)
    (hD : D.onStep cfg th c (failed (outcome fault (S.exec c cfg.state))))
    (h : (Proc.await c next).Custody T th.call (fun _ => T.rest) cfg.state) :
    (next (reply (outcome fault (S.exec c cfg.state)))).Custody T th.call (fun _ => T.rest)
      (after (outcome fault (S.exec c cfg.state)) cfg.state) := by
  obtain ⟨-, -, -, hok, herror⟩ := h cfg.state (X.refl _)
  have hallow := X.allows cfg th c _ hmine hbegun hD
  cases hout : outcome fault (S.exec c cfg.state) with
  | ok r =>
    obtain ⟨a, s'⟩ := r
    rw [hout] at hallow
    refine hok a s' hallow ?_
    rw [X.exec]
    exact (outcome_eq_ok hout).2
  | error e =>
    rw [hout] at hallow
    refine herror e hallow ?_
    rw [X.exec, X.mayFail]
    cases fault with
    | none => exact Or.inr hout
    | some e' => exact Or.inl (hfault.resolve_left (by simp))

/-- A step that keeps to the rely, by a call that has not got the thing, and is
clear after it if it is inside. -/
theorem Custodial.step_away (X : Custodial S D T inside takes replies outside) {i : ℕ}
    {th : Thread K C R ε α} {c : C} {next : Except ε (R c) → Proc C R ε α}
    {r : Except ε (R c × σ)} (hkept : Kept T inside cfg) (hth : cfg.thread i = some th)
    (hrely : T.rely cfg.state (after r cfg.state))
    (hclear : inside th.call = true → (next (reply r)).Issues T.away)
    (hnot : ∀ j thj, cfg.thread j = some thj → inside thj.call = true → thj.begun = true →
      thj.proc.Custody T thj.call (fun _ => T.rest) cfg.state → (∀ l th', cfg.thread l = some th' →
        inside th'.call = true → th'.begun = true → l ≠ j → th'.proc.Issues T.away) → j ≠ i ∨
        T.rest cfg.state ∧ cfg.Clear T inside) :
    Kept T inside (cfg.resume th next r) := by
  -- the other calls are as they were
  have hclear' : cfg.Clear T inside → (cfg.resume th next r).Clear T inside := by
    intro hall j th' hth' hinside hbegun
    rcases Config.thread_resume_cases hth hth' with ⟨rfl, rfl⟩ | hold
    · exact hclear hinside
    · exact hall j th' hold hinside hbegun
  cases hkept with
  | free hall hrest => exact .free (hclear' hall) (X.rest _ _ hrest hrely)
  | kept j thj hthj hmine hbegun hcustody honly =>
    rcases hnot j thj hthj hmine hbegun hcustody honly with hji | ⟨hrest, hall⟩
    · refine .kept j thj ?_ hmine hbegun ?_ ?_
      · rw [Config.thread_resume_ne hth hji, hthj]
      · exact hcustody.later X.trans (fun _ s s' hs hr => X.rest s s' hs hr) hrely
      · intro l th' hth' hinside hbegun' hlj
        rcases Config.thread_resume_cases hth hth' with ⟨rfl, rfl⟩ | hold
        · exact hclear hinside
        · exact honly l th' hold hinside hbegun' hlj
    · exact .free (hclear' hall) (X.rest _ _ hrest hrely)

/-- **Step lemma.** -/
theorem Custodial.step (X : Custodial S D T inside takes replies outside) {i : ℕ}
    {fault : Option ε} {th : Thread K C R ε α} {c : C} {next : Except ε (R c) → Proc C R ε α}
    (hkept : Kept T inside cfg) (hknown : Known S inside replies outside cfg)
    (hth : cfg.thread i = some th) (hproc : th.proc = .await c next)
    (hfault : fault = none ∨ S.mayFail c = true)
    (hD : D.onStep cfg th c (failed (outcome fault (S.exec c cfg.state)))) :
    Kept T inside (cfg.resume th next (outcome fault (S.exec c cfg.state))) := by
  cases hside : inside th.call with
  | false =>
    -- a step of another call
    have hissued := (hknown i th hth).1 hside
    rw [hproc] at hissued
    refine X.step_away hkept hth ?_ (fun hmine => by rw [hside] at hmine; cases hmine) ?_
    · cases hout : outcome fault (S.exec c cfg.state) with
      | error e => exact X.refl _
      | ok r => exact X.others i th.call c _ r.1 r.2 hside hissued.inv.1 (outcome_eq_ok hout).2
    · rintro j thj hthj hmine - - -
      left
      rintro rfl
      obtain rfl : th = thj := Option.some.inj (hth.symm.trans hthj)
      rw [hside] at hmine
      cases hmine
  | true =>
    cases hbegun : th.begun with
    | false =>
      have hprog := (hknown i th hth).2 hside hbegun
      rw [hproc] at hprog
      have hother : ∀ j thj, cfg.thread j = some thj → thj.begun = true → j ≠ i := by
        rintro j thj hthj hbegunj rfl
        obtain rfl : th = thj := Option.some.inj (hth.symm.trans hthj)
        rw [hbegun] at hbegunj
        cases hbegunj
      by_cases htakes : takes th.call cfg.state
      · -- nobody has it, so this call may take it
        obtain ⟨hrest, hall⟩ :=
          hkept.at_rest X.refl (X.alone cfg th c _ hside hbegun hD htakes)
        obtain ⟨hok, herror⟩ := X.taken i th.call c next cfg.state hside hprog.symm htakes hrest
        cases hout : outcome fault (S.exec c cfg.state) with
        | ok r =>
          obtain ⟨a, s'⟩ := r
          refine .kept i { th with begun := true, proc := next (.ok a) } ?_ hside rfl
            (hok a s' (outcome_eq_ok hout).2) fun j th' hth' hinside hbegun' hji => ?_
          · rw [Config.thread_resume, if_pos (Config.id_of_thread hth)]
            rfl
          · rw [Config.thread_resume_ne hth hji] at hth'
            exact hall j th' hth' hinside hbegun'
        | error e =>
          refine .free (fun j th' hth' hinside hbegun' => ?_) hrest
          rcases Config.thread_resume_cases hth hth' with ⟨rfl, rfl⟩ | hold
          · exact herror e
          · exact hall j th' hold hinside hbegun'
      · obtain ⟨hok, herror⟩ := X.left i th.call c next cfg.state hside hprog.symm htakes
        refine X.step_away hkept hth ?_ (fun _ => ?_) fun j thj hthj _ hbegunj _ _ =>
          Or.inl (hother j thj hthj hbegunj)
        · cases hout : outcome fault (S.exec c cfg.state) with
          | error e => exact X.refl _
          | ok r => exact (hok r.1 r.2 (outcome_eq_ok hout).2).1
        · cases hout : outcome fault (S.exec c cfg.state) with
          | error e => exact herror e
          | ok r => exact (hok r.1 r.2 (outcome_eq_ok hout).2).2
    | true =>
      by_cases hmine : th.proc.Issues T.away
      · -- a call that is clear stays clear
        rw [hproc] at hmine
        have hrely : T.rely cfg.state (after (outcome fault (S.exec c cfg.state)) cfg.state) := by
          cases hout : outcome fault (S.exec c cfg.state) with
          | error e => exact X.refl _
          | ok r => exact X.away c _ r.1 r.2 hmine.1 (outcome_eq_ok hout).2
        refine X.step_away hkept hth hrely (fun _ => hmine.2 _) ?_
        intro j thj hthj hminej hbegunj hcustody honly
        by_cases hji : j = i
        · -- it had the thing: it has given it back
          subst hji
          obtain rfl : th = thj := Option.some.inj (hth.symm.trans hthj)
          have hclear : cfg.Clear T inside := by
            intro l th' hth' hinside hbegun'
            by_cases hlj : l = j
            · subst hlj
              obtain rfl : th = th' := Option.some.inj (hth.symm.trans hth')
              rw [hproc]
              exact hmine
            · exact honly l th' hth' hinside hbegun' hlj
          exact Or.inr ((Kept.kept j th hth hside hbegun hcustody honly).at_rest X.refl
            fun l th' hth' hinside hbegun' => Or.inr (hclear l th' hth' hinside hbegun'))
        · exact Or.inl hji
      · cases hkept with
        | free hclear _ => exact absurd (hclear i th hth hside hbegun) hmine
        | kept j thj hthj _ _ hcustody honly =>
          have hji : j = i := by
            by_contra hne
            exact hmine (honly i th hth hside hbegun (Ne.symm hne))
          subst hji
          obtain rfl : th = thj := Option.some.inj (hth.symm.trans hthj)
          rw [hproc] at hcustody
          have hnext := X.goes_on hside hbegun hfault hD hcustody
          refine .kept j { th with
              begun := true, proc := next (reply (outcome fault (S.exec c cfg.state))) }
            ?_ hside rfl hnext ?_
          · rw [Config.thread_resume, if_pos (Config.id_of_thread hth)]
          · intro l th' hth' hinside hbegun' hlj
            rw [Config.thread_resume_ne hth hlj] at hth'
            exact honly l th' hth' hinside hbegun' hlj

theorem Custodial.kept (X : Custodial S D T inside takes replies outside)
    (hnil : cfg₀.threads = []) (hrest : T.rest cfg₀.state) (h : Reach S D cfg₀ cfg) :
    Kept T inside cfg := by
  induction h with
  | refl =>
    refine .free (fun i th hth => ?_) hrest
    rw [Config.thread, hnil] at hth
    cases hth
  | @call cfg i k hreach hfresh _ ih =>
    -- a call that is new has not begun
    have hold : ∀ j th', (cfg.spawn i k (S.prog i k)).thread j = some th' → th'.begun = true →
        cfg.thread j = some th' := by
      intro j th' hth' hbegun
      rcases Config.thread_spawn_cases hth' with ⟨rfl, rfl⟩ | hold
      · cases hbegun
      · exact hold
    cases ih with
    | free hclear hrest' =>
      exact .free (fun j th' hth' hinside hbegun =>
        hclear j th' (hold j th' hth' hbegun) hinside hbegun) hrest'
    | kept j thj hthj hmine hbegun hcustody honly =>
      have hji : i ≠ j := by
        rintro rfl
        rw [hfresh] at hthj
        cases hthj
      refine .kept j thj ?_ hmine hbegun hcustody fun l th' hth' hinside hbegun' hlj =>
        honly l th' (hold l th' hth' hbegun') hinside hbegun' hlj
      rw [Config.thread_spawn, if_neg hji, hthj]
  | step i fault th c next hreach hth hproc _ hfault hD ih =>
    exact X.step ih (known_reach X.replied X.issues hnil hreach) hth hproc hfault hD

/-- **Custody.** -/
theorem Reach.custody (X : Custodial S D T inside takes replies outside)
    (hnil : cfg₀.threads = []) (hrest : T.rest cfg₀.state) (h : Reach S D cfg₀ cfg) :
    T.safe cfg.state ∧ (cfg.Clear T inside → T.rest cfg.state) := by
  have hkept := X.kept hnil hrest h
  refine ⟨?_, fun hclear => (hkept.at_rest X.refl fun i th hth hinside hbegun =>
    Or.inr (hclear i th hth hinside hbegun)).1⟩
  cases hkept with
  | free _ hrest' => exact X.safe _ hrest'
  | kept i th hth hmine hbegun hcustody _ =>
    cases hproc : th.proc with
    | done r =>
      rw [hproc] at hcustody
      exact X.safe _ hcustody
    | await c next =>
      rw [hproc] at hcustody
      exact (hcustody cfg.state (X.refl _)).1

end Custodial

end Async
