import NexaFx.Lib.Pool

/-!
# Critical sections

Some of the calls of a server work on one thing and must not overlap; the
others go on around them at any time. A `Section` says what the others may
change (`rely`), what holds whenever no call is inside (`rest`), and what has
to hold at every moment (`safe`).

* `Proc.Secures` — a call that runs in the section, step by step among the
  others, keeps `safe` and ends with its postcondition;
* `Reach.exclusive` — when each call of the section starts only while no other
  one is inside, and started alone each secures `rest`, then `safe` holds in
  every configuration reached and `rest` whenever the section is empty;
* `Reach.guarded` — the same for calls that enter with a later command, a `Gate`,
  and are inside while they wait on a command of its body.
-/

namespace Async

variable {K C : Type} {R : C → Type} {ε σ α β : Type}

/-- What the calls of a critical section work with. -/
structure Section (C : Type) (R : C → Type) (ε σ : Type) where
  exec : Exec C R ε σ
  mayFail : C → Bool
  /-- The command may turn out so, failed or not, in this state. -/
  allows : C → Bool → σ → Prop
  rely : σ → σ → Prop
  safe : σ → Prop
  rest : σ → Prop

namespace Proc

/-- Among others that keep to `rely`, the call keeps `safe` and ends with `post`. -/
def Secures (E : Section C R ε σ) (post : Except ε α → σ → Prop) : Proc C R ε α → σ → Prop
  | .done r, s => post r s
  | .await c next, s => ∀ s', E.rely s s' → E.safe s' ∧
      (∀ a s'', E.allows c false s' → E.exec c s' = .ok (a, s'') →
        (next (.ok a)).Secures E post s'') ∧
      ∀ e, E.allows c true s' → (E.mayFail c = true ∨ E.exec c s' = .error e) →
        (next (.error e)).Secures E post s'

section Secures

variable {E : Section C R ε σ} {s : σ}

theorem Secures.later (htrans : ∀ s₁ s₂ s₃, E.rely s₁ s₂ → E.rely s₂ s₃ → E.rely s₁ s₃)
    {post : Except ε α → σ → Prop} (hpost : ∀ r s s', post r s → E.rely s s' → post r s')
    {p : Proc C R ε α} {s' : σ} (h : p.Secures E post s) (hrely : E.rely s s') :
    p.Secures E post s' := by
  cases p with
  | done r => exact hpost r s s' h hrely
  | await c next => exact fun s'' hrely' => h s'' (htrans _ _ _ hrely hrely')

theorem secures_mono {post post' : Except ε α → σ → Prop} (himp : ∀ r s, post r s → post' r s)
    {p : Proc C R ε α} (h : p.Secures E post s) : p.Secures E post' s := by
  induction p generalizing s with
  | done r => exact himp r s h
  | await c next ih =>
    intro s' hrely
    obtain ⟨hsafe, hok, herror⟩ := h s' hrely
    exact ⟨hsafe, fun a s'' hallow hexec => ih _ (hok a s'' hallow hexec),
      fun e hallow hcan => ih _ (herror e hallow hcan)⟩

/-- Sequential composition. -/
theorem secures_bind {p : Proc C R ε α} {k : α → Proc C R ε β} {post : Except ε β → σ → Prop} :
    (p.bind k).Secures E post s ↔
      p.Secures E (fun r s' => match r with
        | .ok a => (k a).Secures E post s'
        | .error e => post (.error e) s') s := by
  induction p generalizing s with
  | done r => cases r <;> exact Iff.rfl
  | await c next ih =>
    simp only [await_bind, Secures]
    refine forall_congr' fun s' => forall_congr' fun _ => and_congr Iff.rfl (and_congr ?_ ?_)
    · exact forall_congr' fun a => forall_congr' fun s'' => forall_congr' fun _ =>
        forall_congr' fun _ => ih _
    · exact forall_congr' fun e => forall_congr' fun _ => forall_congr' fun _ => ih _

/-- A caught error is a value. -/
theorem secures_attempt {p : Proc C R ε α} {post : Except ε (Except ε α) → σ → Prop} :
    p.attempt.Secures E post s ↔ p.Secures E (fun r s' => post (.ok r) s') s := by
  induction p generalizing s with
  | done r => exact Iff.rfl
  | await c next ih =>
    simp only [attempt_await, Secures]
    refine forall_congr' fun s' => forall_congr' fun _ => and_congr Iff.rfl (and_congr ?_ ?_)
    · exact forall_congr' fun a => forall_congr' fun s'' => forall_congr' fun _ =>
        forall_congr' fun _ => ih _
    · exact forall_congr' fun e => forall_congr' fun _ => forall_congr' fun _ => ih _

/-- One await, between assertions: `A` holds before it, whatever the others do. -/
theorem secures_call {c : C} {post : Except ε (R c) → σ → Prop} {A : σ → Prop} (hs : A s)
    (hstable : ∀ s s', A s → E.rely s s' → A s') (hsafe : ∀ s, A s → E.safe s)
    (hok : ∀ s a s', A s → E.allows c false s → E.exec c s = .ok (a, s') → post (.ok a) s')
    (herror : ∀ s e, A s → E.allows c true s →
      (E.mayFail c = true ∨ E.exec c s = .error e) → post (.error e) s) :
    (Proc.call c : Proc C R ε (R c)).Secures E post s := by
  intro s' hrely
  have hA := hstable s s' hs hrely
  exact ⟨hsafe s' hA, fun a s'' hallow hexec => hok s' a s'' hA hallow hexec,
    fun e hallow hcan => herror s' e hA hallow hcan⟩

theorem secures_call_bind {c : C} {k : R c → Proc C R ε β} {post : Except ε β → σ → Prop}
    {A : σ → Prop} (hs : A s) (hstable : ∀ s s', A s → E.rely s s' → A s')
    (hsafe : ∀ s, A s → E.safe s)
    (hok : ∀ s a s', A s → E.allows c false s → E.exec c s = .ok (a, s') →
      (k a).Secures E post s')
    (herror : ∀ s e, A s → E.allows c true s →
      (E.mayFail c = true ∨ E.exec c s = .error e) → post (.error e) s) :
    ((Proc.call c).bind k).Secures E post s :=
  secures_bind.mpr (secures_call hs hstable hsafe hok herror)

/-- A call all of whose commands keep to the rely changes nothing at rest. -/
theorem secures_of_issues {P : C → Prop} (hrest : ∀ s s', E.rest s → E.rely s s' → E.rest s')
    (hsafe : ∀ s, E.rest s → E.safe s)
    (hstep : ∀ c s a s', P c → E.exec c s = .ok (a, s') → E.rely s s') {p : Proc C R ε α}
    (hp : p.Issues P) (hs : E.rest s) : p.Secures E (fun _ => E.rest) s := by
  induction p generalizing s with
  | done r => exact hs
  | await c next ih =>
    intro s' hrely
    have hs' := hrest s s' hs hrely
    refine ⟨hsafe s' hs', fun a s'' _ hexec => ?_, fun e _ _ => ih _ (hp.2 _) hs'⟩
    exact ih _ (hp.2 _) (hrest s' s'' hs' (hstep c s' a s'' hp.1 hexec))

theorem secures_rejectWhen_bind {c : Prop} [Decidable c] {e : ε} {k : Unit → Proc C R ε β}
    {post : Except ε β → σ → Prop} (hreject : c → post (.error e) s)
    (hpass : ¬ c → (k ()).Secures E post s) :
    ((Proc.rejectWhen c e).bind k).Secures E post s := by
  unfold rejectWhen
  split
  · rename_i hc
    exact hreject hc
  · rename_i hc
    exact hpass hc

end Secures

end Proc

-- ---------------------------------------------------------------------------
-- Calls that do not overlap
-- ---------------------------------------------------------------------------

/-- Nobody is inside the section. -/
def Config.Vacant (inside : K → Bool) (cfg : Config K C R ε σ α) : Prop :=
  ∀ i th, cfg.thread i = some th → inside th.call = true → cfg.inProgress i = false

/-- No call at all is on its way. -/
def Config.idle (cfg : Config K C R ε σ α) : Bool :=
  cfg.threads.all fun th => !cfg.inProgress th.id

theorem Config.vacant_of_idle {cfg : Config K C R ε σ α} (h : cfg.idle = true)
    (inside : K → Bool) : cfg.Vacant inside := by
  intro i th hth _
  have hhere := List.all_eq_true.mp h th (Table.mem_of_get _ hth)
  rw [Config.id_of_thread hth] at hhere
  simpa using hhere

/-- What has to be shown of a section among the calls of a server. -/
structure Exclusive (S : System K C R ε σ α) (D : Discipline K C R ε σ α) (E : Section C R ε σ)
    (inside : K → Bool) (replies : (c : C) → R c → Prop) (outside : ℕ → K → C → Prop) : Prop where
  exec : E.exec = S.exec
  mayFail : E.mayFail = S.mayFail
  refl : ∀ s, E.rely s s
  trans : ∀ s₁ s₂ s₃, E.rely s₁ s₂ → E.rely s₂ s₃ → E.rely s₁ s₃
  safe : ∀ s, E.rest s → E.safe s
  rest : ∀ s s', E.rest s → E.rely s s' → E.rest s'
  /-- A call of the section that starts alone secures it. -/
  secures : ∀ i k s, inside k = true → E.rest s →
    (S.prog i k).Secures E (fun _ => E.rest) s
  /-- The other calls issue commands that keep to the rely. -/
  replied : ∀ c s a s', S.exec c s = .ok (a, s') → replies c a
  issues : ∀ i k, inside k = false → (S.prog i k).Always replies fun c _ => outside i k c
  others : ∀ i k c s a s', inside k = false → outside i k c → S.exec c s = .ok (a, s') →
    E.rely s s'
  allows : ∀ cfg th c f, inside th.call = true → D.onStep cfg th c f → E.allows c f cfg.state
  /-- A call of the section takes its first step only while nobody is inside. -/
  alone : ∀ cfg th c f, inside th.call = true → th.begun = false → D.onStep cfg th c f →
    cfg.Vacant inside

section Exclusive

variable {S : System K C R ε σ α} {D : Discipline K C R ε σ α} {E : Section C R ε σ}
  {inside : K → Bool} {replies : (c : C) → R c → Prop} {outside : ℕ → K → C → Prop}
  {cfg₀ cfg : Config K C R ε σ α}

/-- The section is empty and at rest, or one call is inside and secures it. -/
inductive Held (E : Section C R ε σ) (inside : K → Bool) (cfg : Config K C R ε σ α) : Prop
  | empty (vacant : cfg.Vacant inside) (rest : E.rest cfg.state)
  | busy (i : ℕ) (th : Thread K C R ε α) (here : cfg.thread i = some th)
      (mine : inside th.call = true) (begun : th.begun = true)
      (secures : th.proc.Secures E (fun _ => E.rest) cfg.state)
      (only : ∀ j th', cfg.thread j = some th' → inside th'.call = true → j ≠ i →
        cfg.inProgress j = false)

/-- What is known of each call. -/
def Known (S : System K C R ε σ α) (inside : K → Bool) (replies : (c : C) → R c → Prop)
    (outside : ℕ → K → C → Prop) (cfg : Config K C R ε σ α) : Prop :=
  ∀ i th, cfg.thread i = some th →
    (inside th.call = false → th.proc.Always replies fun c _ => outside i th.call c) ∧
    (inside th.call = true → th.begun = false → th.proc = S.prog i th.call)

theorem inProgress_of_await {i : ℕ} {th : Thread K C R ε α} {c : C}
    {next : Except ε (R c) → Proc C R ε α} (hth : cfg.thread i = some th)
    (hproc : th.proc = .await c next) (hbegun : th.begun = true) : cfg.inProgress i = true := by
  rw [Config.inProgress, hth]
  simp [hproc, hbegun, Proc.isDone]

/-- A call that is inside goes on inside. -/
theorem secures_resume {fault : Option ε} {c : C} {next : Except ε (R c) → Proc C R ε α}
    (hexec : E.exec = S.exec) (hmayFail : E.mayFail = S.mayFail) (hrefl : ∀ s, E.rely s s)
    (hfault : fault = none ∨ S.mayFail c = true)
    (hallow : E.allows c (failed (outcome fault (S.exec c cfg.state))) cfg.state)
    (h : (Proc.await c next).Secures E (fun _ => E.rest) cfg.state) :
    (next (reply (outcome fault (S.exec c cfg.state)))).Secures E (fun _ => E.rest)
      (after (outcome fault (S.exec c cfg.state)) cfg.state) := by
  obtain ⟨-, hok, herror⟩ := h cfg.state (hrefl _)
  cases hout : outcome fault (S.exec c cfg.state) with
  | ok r =>
    obtain ⟨a, s'⟩ := r
    rw [hout] at hallow
    refine hok a s' hallow ?_
    rw [hexec]
    exact (outcome_eq_ok hout).2
  | error e =>
    rw [hout] at hallow
    refine herror e hallow ?_
    rw [hexec, hmayFail]
    cases fault with
    | none => exact Or.inr hout
    | some e' => exact Or.inl (hfault.resolve_left (by simp))

/-- **Step lemma.** -/
theorem Exclusive.step (X : Exclusive S D E inside replies outside) {i : ℕ} {fault : Option ε}
    {th : Thread K C R ε α} {c : C} {next : Except ε (R c) → Proc C R ε α}
    (hheld : Held E inside cfg) (hknown : Known S inside replies outside cfg)
    (hth : cfg.thread i = some th) (hproc : th.proc = .await c next)
    (hfault : fault = none ∨ S.mayFail c = true)
    (hD : D.onStep cfg th c (failed (outcome fault (S.exec c cfg.state)))) :
    Held E inside (cfg.resume th next (outcome fault (S.exec c cfg.state))) := by
  -- the call goes on inside, and nobody else is there
  have henter : inside th.call = true → th.proc.Secures E (fun _ => E.rest) cfg.state →
      (∀ j th', cfg.thread j = some th' → inside th'.call = true → j ≠ i →
        cfg.inProgress j = false) →
      Held E inside (cfg.resume th next (outcome fault (S.exec c cfg.state))) := by
    intro hmine hsecures honly
    rw [hproc] at hsecures
    refine .busy i { th with
        begun := true, proc := next (reply (outcome fault (S.exec c cfg.state))) }
      ?_ hmine rfl 
      (secures_resume X.exec X.mayFail X.refl hfault (X.allows cfg th c _ hmine hD) hsecures) ?_
    · rw [Config.thread_resume, if_pos (Config.id_of_thread hth)]
    · intro j th' hth' hj hji
      rw [Config.thread_resume_ne hth hji] at hth'
      rw [Config.inProgress_resume_ne hth hji]
      exact honly j th' hth' hj hji
  cases hside : inside th.call with
  | true =>
    cases hbegun : th.begun with
    | false =>
      have hvacant := X.alone cfg th c _ hside hbegun hD
      have hstart : E.rest cfg.state := by
        cases hheld with
        | empty _ hrest => exact hrest
        | busy j thj hthj hmine hbegunj hsecures _ =>
          cases hprocj : thj.proc with
          | done r =>
            rw [hprocj] at hsecures
            exact hsecures
          | await c' next' =>
            have hfree := hvacant j thj hthj hmine
            rw [inProgress_of_await hthj hprocj hbegunj] at hfree
            cases hfree
      refine henter hside ?_ fun j th' hth' hj _ => hvacant j th' hth' hj
      rw [(hknown i th hth).2 hside hbegun]
      exact X.secures i th.call _ hside hstart
    | true =>
      have hrunning := inProgress_of_await hth hproc hbegun
      cases hheld with
      | empty hvacant _ =>
        rw [hvacant i th hth hside] at hrunning
        cases hrunning
      | busy j thj hthj _ _ hsecures honly =>
        by_cases hji : i = j
        · subst hji
          obtain rfl : th = thj := Option.some.inj (hth.symm.trans hthj)
          exact henter hside hsecures honly
        · rw [honly i th hth hside hji] at hrunning
          cases hrunning
  | false =>
    -- a step of another call
    have hissued := (hknown i th hth).1 hside
    rw [hproc] at hissued
    have hrely : E.rely cfg.state (after (outcome fault (S.exec c cfg.state)) cfg.state) := by
      cases hout : outcome fault (S.exec c cfg.state) with
      | error e => exact X.refl _
      | ok r => exact X.others i th.call c _ r.1 r.2 hside hissued.inv.1 (outcome_eq_ok hout).2
    have hfree : ∀ j th', (cfg.resume th next (outcome fault (S.exec c cfg.state))).thread j =
        some th' → inside th'.call = true → j ≠ i ∧ cfg.thread j = some th' := by
      intro j th' hth' hj
      rcases Config.thread_resume_cases hth hth' with ⟨rfl, rfl⟩ | hold
      · rw [hside] at hj
        cases hj
      · refine ⟨?_, hold⟩
        rintro rfl
        obtain rfl : th = th' := Option.some.inj (hth.symm.trans hold)
        rw [hside] at hj
        cases hj
    cases hheld with
    | empty hvacant hrest =>
      refine .empty ?_ (X.rest _ _ hrest hrely)
      intro j th' hth' hj
      obtain ⟨hji, hold⟩ := hfree j th' hth' hj
      rw [Config.inProgress_resume_ne hth hji]
      exact hvacant j th' hold hj
    | busy j thj hthj hmine hbegunj hsecures honly =>
      have hji : j ≠ i := by
        rintro rfl
        obtain rfl : th = thj := Option.some.inj (hth.symm.trans hthj)
        rw [hside] at hmine
        cases hmine
      refine .busy j thj ?_ hmine hbegunj ?_ ?_
      · rw [Config.thread_resume_ne hth hji, hthj]
      · exact hsecures.later X.trans (fun _ s s' hs hr => X.rest s s' hs hr) hrely
      · intro l th' hth' hl hlj
        obtain ⟨hli, hold⟩ := hfree l th' hth' hl
        rw [Config.inProgress_resume_ne hth hli]
        exact honly l th' hold hl hlj

/-- What is known of each call stays known. -/
theorem known_reach (hreplied : ∀ c s a s', S.exec c s = .ok (a, s') → replies c a)
    (hissues : ∀ i k, inside k = false → (S.prog i k).Always replies fun c _ => outside i k c)
    (hnil : cfg₀.threads = []) (h : Reach S D cfg₀ cfg) :
    Known S inside replies outside cfg := by
  refine h.invariant (I := Known S inside replies outside) ?init ?call ?step
  case init =>
    intro i th hth
    rw [Config.thread, hnil] at hth
    cases hth
  case call =>
    intro cfg i k hknown _ _ j th hth
    rcases Config.thread_spawn_cases hth with ⟨rfl, rfl⟩ | hold
    · exact ⟨hissues j k, fun _ _ => rfl⟩
    · exact hknown j th hold
  case step =>
    intro cfg i fault th c next hknown hth hproc _ _ _ j th' hth'
    rcases Config.thread_resume_cases hth hth' with ⟨rfl, rfl⟩ | hold
    · refine ⟨fun hside => ?_, fun _ hbegun => by cases hbegun⟩
      have hissued := (hknown j th hth).1 hside
      rw [hproc] at hissued
      obtain ⟨-, hok, herror⟩ := hissued.inv
      cases hout : outcome fault (S.exec c cfg.state) with
      | error e => exact herror e
      | ok r => exact hok r.1 (hreplied c _ r.1 r.2 (outcome_eq_ok hout).2)
    · exact hknown j th' hold

theorem Exclusive.held (X : Exclusive S D E inside replies outside) (hnil : cfg₀.threads = [])
    (hrest : E.rest cfg₀.state) (h : Reach S D cfg₀ cfg) : Held E inside cfg := by
  induction h with
  | refl =>
    refine .empty ?_ hrest
    intro i th hth
    rw [Config.thread, hnil] at hth
    cases hth
  | @call cfg i k hreach hfresh _ ih =>
    -- a call that is new is not inside
    have hold : ∀ j th', (cfg.spawn i k (S.prog i k)).thread j = some th' → j ≠ i →
        cfg.thread j = some th' := fun j th' hth' hji =>
      (Config.thread_spawn_cases hth').resolve_left fun hnew => hji hnew.1
    have hnew : cfg.inProgress i = false := by rw [Config.inProgress, hfresh]
    cases ih with
    | empty hvacant hrest' =>
      refine .empty ?_ hrest'
      intro j th' hth' hj
      rw [Config.inProgress_spawn hfresh]
      by_cases hji : j = i
      · rw [hji, hnew]
      · exact hvacant j th' (hold j th' hth' hji) hj
    | busy j thj hthj hmine hbegun hsecures honly =>
      have hji : i ≠ j := by
        rintro rfl
        rw [hfresh] at hthj
        cases hthj
      refine .busy j thj ?_ hmine hbegun hsecures ?_
      · rw [Config.thread_spawn, if_neg hji, hthj]
      · intro l th' hth' hl hlj
        rw [Config.inProgress_spawn hfresh]
        by_cases hli : l = i
        · rw [hli, hnew]
        · exact honly l th' (hold l th' hth' hli) hl hlj
  | step i fault th c next hreach hth hproc _ hfault hD ih =>
    exact X.step ih (known_reach X.replied X.issues hnil hreach) hth hproc hfault hD

/-- **Critical sections.** -/
theorem Reach.exclusive (X : Exclusive S D E inside replies outside) (hnil : cfg₀.threads = [])
    (hrest : E.rest cfg₀.state) (h : Reach S D cfg₀ cfg) :
    E.safe cfg.state ∧ (cfg.Vacant inside → E.rest cfg.state) := by
  have hheld := X.held hnil hrest h
  cases hheld with
  | empty _ hrest' => exact ⟨X.safe _ hrest', fun _ => hrest'⟩
  | busy i th hth hmine hbegun hsecures _ =>
    cases hproc : th.proc with
    | done r =>
      rw [hproc] at hsecures
      exact ⟨X.safe _ hsecures, fun _ => hsecures⟩
    | await c next =>
      rw [hproc] at hsecures
      refine ⟨(hsecures cfg.state (X.refl _)).1, fun hvacant => ?_⟩
      have hfree := hvacant i th hth hmine
      rw [inProgress_of_await hth hproc hbegun] at hfree
      cases hfree

end Exclusive

-- ---------------------------------------------------------------------------
-- Calls that enter with a later command
-- ---------------------------------------------------------------------------

/-- A section that a call enters with one of its commands; then it is inside
while it waits on a `body` command. -/
structure Gate (C : Type) (R : C → Type) (ε σ : Type) extends Section C R ε σ where
  entry : C → Bool
  body : C → Bool

/-- The command that a call waits on. -/
def Proc.waitsOn : Proc C R ε α → Option C
  | .done _ => none
  | .await c _ => some c

/-- A call outside: it changes nothing that counts until it enters, and if it
enters at rest it secures the section. -/
def Proc.Gated (E : Gate C R ε σ) : Proc C R ε α → Prop
  | .done _ => True
  | .await c next => E.body c = false ∧
      (E.entry c = true → (∀ r, (next r).Issues fun c => E.body c = true) ∧
        ∀ s, E.rest s → (Proc.await c next).Secures E.toSection (fun _ => E.rest) s) ∧
      (E.entry c = false → (∀ s a s', E.exec c s = .ok (a, s') → E.rely s s') ∧
        ∀ r, (next r).Gated E)

namespace Proc

section Gated

variable {E : Gate C R ε σ}

/-- A command before the entry. -/
theorem gated_call_bind {c : C} {k : R c → Proc C R ε β} (hbody : E.body c = false)
    (hentry : E.entry c = false) (hkeeps : ∀ s a s', E.exec c s = .ok (a, s') → E.rely s s')
    (hk : ∀ a, (k a).Gated E) : ((Proc.call c).bind k).Gated E := by
  refine ⟨hbody, fun h => absurd h (by simp [hentry]), fun _ => ⟨hkeeps, fun r => ?_⟩⟩
  cases r with
  | ok a => exact hk a
  | error e => trivial

/-- The command that enters. -/
theorem gated_entry_bind {c : C} {k : R c → Proc C R ε β} (hbody : E.body c = false)
    (hentry : E.entry c = true) (hissues : ∀ a, (k a).Issues fun c => E.body c = true)
    (hsecures : ∀ s, E.rest s →
      ((Proc.call c).bind k).Secures E.toSection (fun _ => E.rest) s) :
    ((Proc.call c).bind k).Gated E := by
  refine ⟨hbody, fun _ => ⟨fun r => ?_, hsecures⟩, fun h => absurd h (by simp [hentry])⟩
  cases r with
  | ok a => exact hissues a
  | error e => trivial

theorem gated_rejectWhen_bind {c : Prop} [Decidable c] {e : ε} {k : Unit → Proc C R ε β}
    (hk : ¬ c → (k ()).Gated E) : ((Proc.rejectWhen c e).bind k).Gated E := by
  unfold rejectWhen
  split
  · trivial
  · rename_i hc
    exact hk hc

end Gated

end Proc

/-- No call of the section waits on a body command. -/
def Config.Passed (E : Gate C R ε σ) (inside : K → Bool) (cfg : Config K C R ε σ α) : Prop :=
  ∀ i th, cfg.thread i = some th → inside th.call = true →
    ∀ c, th.proc.waitsOn = some c → E.body c = false

/-- No call at all waits on one. -/
theorem Config.passed_of_all {E : Gate C R ε σ} {inside : K → Bool} {cfg : Config K C R ε σ α}
    (h : (cfg.threads.all fun th => !th.proc.waitsOn.any E.body) = true) :
    cfg.Passed E inside := by
  intro i th hth _ c hc
  have hhere := List.all_eq_true.mp h th (Table.mem_of_get _ hth)
  rw [hc] at hhere
  simpa using hhere

/-- What has to be shown of a gate among the calls of a server. -/
structure Guarded (S : System K C R ε σ α) (D : Discipline K C R ε σ α) (E : Gate C R ε σ)
    (inside : K → Bool) (replies : (c : C) → R c → Prop) (outside : ℕ → K → C → Prop) : Prop where
  exec : E.exec = S.exec
  mayFail : E.mayFail = S.mayFail
  refl : ∀ s, E.rely s s
  trans : ∀ s₁ s₂ s₃, E.rely s₁ s₂ → E.rely s₂ s₃ → E.rely s₁ s₃
  safe : ∀ s, E.rest s → E.safe s
  rest : ∀ s s', E.rest s → E.rely s s' → E.rest s'
  gated : ∀ i k, inside k = true → (S.prog i k).Gated E
  /-- The other calls issue commands that keep to the rely. -/
  replied : ∀ c s a s', S.exec c s = .ok (a, s') → replies c a
  issues : ∀ i k, inside k = false → (S.prog i k).Always replies fun c _ => outside i k c
  others : ∀ i k c s a s', inside k = false → outside i k c → S.exec c s = .ok (a, s') →
    E.rely s s'
  allows : ∀ cfg th c f, inside th.call = true → D.onStep cfg th c f → E.allows c f cfg.state
  /-- A call of the section enters only while nobody is inside. -/
  alone : ∀ cfg th c f, inside th.call = true → E.entry c = true → D.onStep cfg th c f →
    cfg.Passed E inside

section Guarded

variable {S : System K C R ε σ α} {D : Discipline K C R ε σ α} {E : Gate C R ε σ}
  {inside : K → Bool} {replies : (c : C) → R c → Prop} {outside : ℕ → K → C → Prop}
  {cfg₀ cfg : Config K C R ε σ α}

/-- Nobody has entered and the section is at rest, or one call has and secures it. -/
inductive Entered (E : Gate C R ε σ) (inside : K → Bool) (cfg : Config K C R ε σ α) : Prop
  | none (gated : ∀ j th, cfg.thread j = some th → inside th.call = true → th.proc.Gated E)
      (rest : E.rest cfg.state)
  | one (i : ℕ) (th : Thread K C R ε α) (here : cfg.thread i = some th)
      (mine : inside th.call = true) (body : th.proc.Issues fun c => E.body c = true)
      (secures : th.proc.Secures E.toSection (fun _ => E.rest) cfg.state)
      (gated : ∀ j th', cfg.thread j = some th' → inside th'.call = true → j ≠ i →
        th'.proc.Gated E)

/-- The step of a call that has not entered: it enters, or keeps to the rely. -/
theorem Guarded.outer (X : Guarded S D E inside replies outside) {i : ℕ} {fault : Option ε}
    {th : Thread K C R ε α} {c : C} {next : Except ε (R c) → Proc C R ε α}
    (hgated : inside th.call = true → th.proc.Gated E)
    (hissued : inside th.call = false → th.proc.Always replies fun c _ => outside i th.call c)
    (hproc : th.proc = .await c next)
    (hD : D.onStep cfg th c (failed (outcome fault (S.exec c cfg.state)))) :
    (inside th.call = true ∧ cfg.Passed E inside ∧
      (∀ r, (next r).Issues fun c => E.body c = true) ∧
      ∀ s, E.rest s → (Proc.await c next).Secures E.toSection (fun _ => E.rest) s) ∨
    (E.rely cfg.state (after (outcome fault (S.exec c cfg.state)) cfg.state) ∧
      (inside th.call = true → ∀ r, (next r).Gated E)) := by
  have hstays : (∀ a s', S.exec c cfg.state = .ok (a, s') → E.rely cfg.state s') →
      E.rely cfg.state (after (outcome fault (S.exec c cfg.state)) cfg.state) := by
    intro hkeeps
    cases hout : outcome fault (S.exec c cfg.state) with
    | error e => exact X.refl _
    | ok r => exact hkeeps r.1 r.2 (outcome_eq_ok hout).2
  cases hside : inside th.call with
  | true =>
    have hhere := hgated hside
    rw [hproc] at hhere
    obtain ⟨-, henter, hquiet⟩ := hhere
    cases hentry : E.entry c with
    | true =>
      obtain ⟨hbody, hsecures⟩ := henter hentry
      exact Or.inl ⟨rfl, X.alone cfg th c _ hside hentry hD, hbody, hsecures⟩
    | false =>
      obtain ⟨hkeeps, hnext⟩ := hquiet hentry
      refine Or.inr ⟨hstays fun a s' hexec => ?_, fun _ => hnext⟩
      exact hkeeps _ a s' (by rw [X.exec, hexec])
  | false =>
    have hhere := hissued hside
    rw [hproc] at hhere
    refine Or.inr ⟨hstays fun a s' hexec => ?_, fun h => by cases h⟩
    exact X.others i th.call c _ a s' hside hhere.inv.1 hexec

/-- **Step lemma.** -/
theorem Guarded.step (X : Guarded S D E inside replies outside) {i : ℕ} {fault : Option ε}
    {th : Thread K C R ε α} {c : C} {next : Except ε (R c) → Proc C R ε α}
    (hheld : Entered E inside cfg) (hknown : Known S inside replies outside cfg)
    (hth : cfg.thread i = some th) (hproc : th.proc = .await c next)
    (hfault : fault = none ∨ S.mayFail c = true)
    (hD : D.onStep cfg th c (failed (outcome fault (S.exec c cfg.state)))) :
    Entered E inside (cfg.resume th next (outcome fault (S.exec c cfg.state))) := by
  have hothers : ∀ {j th'}, (cfg.resume th next (outcome fault (S.exec c cfg.state))).thread j =
      some th' → j ≠ i → cfg.thread j = some th' := by
    intro j th' hth' hji
    rwa [Config.thread_resume_ne hth hji] at hth'
  have hself : (cfg.resume th next (outcome fault (S.exec c cfg.state))).thread i =
      some { th with
        begun := true, proc := next (reply (outcome fault (S.exec c cfg.state))) } := by
    rw [Config.thread_resume, if_pos (Config.id_of_thread hth)]
  -- the call is inside now
  have henter : inside th.call = true → (∀ r, (next r).Issues fun c => E.body c = true) →
      (Proc.await c next).Secures E.toSection (fun _ => E.rest) cfg.state →
      (∀ j th', cfg.thread j = some th' → inside th'.call = true → j ≠ i →
        th'.proc.Gated E) →
      Entered E inside (cfg.resume th next (outcome fault (S.exec c cfg.state))) := by
    intro hmine hbody hsecures hgated
    refine .one i _ hself hmine (hbody _) ?_ fun j th' hth' hj hji =>
      hgated j th' (hothers hth' hji) hj hji
    exact secures_resume (E := E.toSection) X.exec X.mayFail X.refl hfault
      (X.allows cfg th c _ hmine hD) hsecures
  cases hheld with
  | none hgated hrest =>
    rcases X.outer (hgated i th hth) (hknown i th hth).1 hproc hD with
      ⟨hmine, -, hbody, hsecures⟩ | ⟨hrely, hnext⟩
    · exact henter hmine hbody (hsecures _ hrest) fun j th' hth' hj _ => hgated j th' hth' hj
    · refine .none (fun j th' hth' hj => ?_) (X.rest _ _ hrest hrely)
      by_cases hji : j = i
      · subst hji
        obtain rfl := Option.some.inj (hself.symm.trans hth')
        exact hnext hj _
      · exact hgated j th' (hothers hth' hji) hj
  | one j thj hthj hmine hbody hsecures hgated =>
    by_cases hji : j = i
    · subst hji
      obtain rfl : th = thj := Option.some.inj (hth.symm.trans hthj)
      rw [hproc] at hbody hsecures
      exact henter hmine hbody.2 hsecures hgated
    · rcases X.outer (fun hside => hgated i th hth hside (Ne.symm hji))
        (hknown i th hth).1 hproc hD with ⟨hside, hpassed, hbody', hsecures'⟩ | ⟨hrely, hnext⟩
      · -- the call that was inside is over
        have hover : E.rest cfg.state ∧ thj.proc.Gated E := by
          cases hprocj : thj.proc with
          | done r =>
            rw [hprocj] at hsecures
            exact ⟨hsecures, trivial⟩
          | await c' next' =>
            rw [hprocj] at hbody
            have hfree := hpassed j thj hthj hmine c' (by rw [hprocj]; rfl)
            rw [hbody.1] at hfree
            cases hfree
        refine henter hside hbody' (hsecures' _ hover.1) fun l th' hth' hl _ => ?_
        by_cases hlj : l = j
        · subst hlj
          obtain rfl := Option.some.inj (hthj.symm.trans hth')
          exact hover.2
        · exact hgated l th' hth' hl hlj
      · refine .one j thj ?_ hmine hbody ?_ fun l th' hth' hl hlj => ?_
        · rw [Config.thread_resume_ne hth hji, hthj]
        · exact hsecures.later X.trans (fun _ s s' hs hr => X.rest s s' hs hr) hrely
        · by_cases hli : l = i
          · subst hli
            obtain rfl := Option.some.inj (hself.symm.trans hth')
            exact hnext hl _
          · exact hgated l th' (hothers hth' hli) hl hlj

theorem Guarded.entered (X : Guarded S D E inside replies outside) (hnil : cfg₀.threads = [])
    (hrest : E.rest cfg₀.state) (h : Reach S D cfg₀ cfg) : Entered E inside cfg := by
  induction h with
  | refl =>
    refine .none ?_ hrest
    intro i th hth
    rw [Config.thread, hnil] at hth
    cases hth
  | @call cfg i k hreach hfresh _ ih =>
    cases ih with
    | none hgated hrest' =>
      refine .none (fun j th' hth' hj => ?_) hrest'
      rcases Config.thread_spawn_cases hth' with ⟨rfl, rfl⟩ | hold
      · exact X.gated j k hj
      · exact hgated j th' hold hj
    | one j thj hthj hmine hbody hsecures hgated =>
      have hji : i ≠ j := by
        rintro rfl
        rw [hfresh] at hthj
        cases hthj
      refine .one j thj ?_ hmine hbody hsecures fun l th' hth' hl hlj => ?_
      · rw [Config.thread_spawn, if_neg hji, hthj]
      · rcases Config.thread_spawn_cases hth' with ⟨rfl, rfl⟩ | hold
        · exact X.gated l k hl
        · exact hgated l th' hold hl hlj
  | step i fault th c next hreach hth hproc _ hfault hD ih =>
    exact X.step ih (known_reach X.replied (fun i k hk => X.issues i k hk) hnil hreach) hth hproc
      hfault hD

/-- **Gates.** -/
theorem Reach.guarded (X : Guarded S D E inside replies outside) (hnil : cfg₀.threads = [])
    (hrest : E.rest cfg₀.state) (h : Reach S D cfg₀ cfg) :
    E.safe cfg.state ∧ (cfg.Passed E inside → E.rest cfg.state) := by
  cases X.entered hnil hrest h with
  | none _ hrest' => exact ⟨X.safe _ hrest', fun _ => hrest'⟩
  | one i th hth hmine hbody hsecures _ =>
    cases hproc : th.proc with
    | done r =>
      rw [hproc] at hsecures
      exact ⟨X.safe _ hsecures, fun _ => hsecures⟩
    | await c next =>
      rw [hproc] at hbody hsecures
      refine ⟨(hsecures cfg.state (X.refl _)).1, fun hpassed => ?_⟩
      have hfree := hpassed i th hth hmine c (by rw [hproc]; rfl)
      rw [hbody.1] at hfree
      cases hfree

end Guarded

end Async
