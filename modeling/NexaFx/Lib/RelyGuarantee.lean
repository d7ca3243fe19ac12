import NexaFx.Lib.Pool

/-!
# Reasoning about one call among many

An invariant of all interleavings is proved one call at a time. Each call has
a *rely* — what the steps of the other calls may change under it — and a
*guarantee* — what its own steps may change. `Safe` says of the rest of a call
that, as long as the others keep to its rely, every step it takes keeps its
guarantee; `RelyGuarantee.reach` puts the calls together: if each call's
guarantee is within every other call's rely and keeps the invariant `J`, then
`J` holds in every reachable configuration.

Most calls **own** a part of the state, such as the rows they created: nobody
else changes it while they run. For these, `wp` is an ordinary weakest
precondition over a `view` of the state (the owned part), computed await by
await as if the call ran alone, and `safe_of_wp` turns it into `Safe`.
-/

namespace Async

variable {K C : Type} {R : C → Type} {ε σ α β V : Type}

/-! ## Rely and guarantee -/

/-- Whatever the other calls do within `Rely`, each step of the rest of call
`i` that `D` allows is within `Guar`. The invariant `J` may be assumed. -/
def Safe (S : System K C R ε σ α) (D : Discipline K C R ε σ α)
    (J : Config K C R ε σ α → Prop)
    (Rely Guar : Config K C R ε σ α → Config K C R ε σ α → Prop) (i : ℕ) (k : K) :
    Proc C R ε α → Config K C R ε σ α → Prop
  | .done _, _ => True
  | .await c next, cfg =>
    ∀ (cfg' : Config K C R ε σ α) (th : Thread K C R ε α) (fault : Option ε),
      Rely cfg cfg' → J cfg' → cfg'.thread i = some th → th.call = k →
      th.proc = .await c next → S.ready c cfg'.state = true →
      (fault = none ∨ S.mayFail c = true) →
      D.onStep cfg' th c (failed (outcome fault (S.exec c cfg'.state))) →
      Guar cfg' (cfg'.resume th next (outcome fault (S.exec c cfg'.state))) ∧
      Safe S D J Rely Guar i k (next (reply (outcome fault (S.exec c cfg'.state))))
        (cfg'.resume th next (outcome fault (S.exec c cfg'.state)))

/-- What has to be shown to compose calls: relies are preorders, guarantees are
within the other calls' relies and keep the invariant, and a call is safe when
it is made. -/
structure RelyGuarantee (S : System K C R ε σ α) (D : Discipline K C R ε σ α)
    (J : Config K C R ε σ α → Prop)
    (Rely Guar : ℕ → K → Config K C R ε σ α → Config K C R ε σ α → Prop) : Prop where
  refl : ∀ i k cfg, Rely i k cfg cfg
  trans : ∀ i k cfg₁ cfg₂ cfg₃, Rely i k cfg₁ cfg₂ → Rely i k cfg₂ cfg₃ → Rely i k cfg₁ cfg₃
  compat : ∀ i k j th cfg cfg', J cfg → j ≠ i → Guar i k cfg cfg' →
    cfg.thread j = some th → Rely j th.call cfg cfg'
  keeps : ∀ i k cfg cfg', J cfg → Guar i k cfg cfg' → J cfg'
  spawn : ∀ cfg i k, J cfg → cfg.thread i = none → D.onCall cfg i k →
    J (cfg.spawn i k (S.prog i k)) ∧
    (∀ j th, cfg.thread j = some th → Rely j th.call cfg (cfg.spawn i k (S.prog i k))) ∧
    Safe S D J (Rely i k) (Guar i k) i k (S.prog i k) (cfg.spawn i k (S.prog i k))

section Composition

variable {S : System K C R ε σ α} {D : Discipline K C R ε σ α}
  {J : Config K C R ε σ α → Prop}

/-- Steps of the others within the rely keep a call safe. -/
theorem Safe.weaken {Rely Guar : Config K C R ε σ α → Config K C R ε σ α → Prop} {i : ℕ} {k : K}
    (htrans : ∀ cfg₁ cfg₂ cfg₃, Rely cfg₁ cfg₂ → Rely cfg₂ cfg₃ → Rely cfg₁ cfg₃)
    {p : Proc C R ε α} {cfg cfg' : Config K C R ε σ α}
    (h : Safe S D J Rely Guar i k p cfg) (hr : Rely cfg cfg') :
    Safe S D J Rely Guar i k p cfg' := by
  cases p with
  | done r => trivial
  | await c next =>
    intro cfg'' th fault hr' hJ hth hk hproc hready hfault hD
    exact h cfg'' th fault (htrans _ _ _ hr hr') hJ hth hk hproc hready hfault hD

variable {Rely Guar : ℕ → K → Config K C R ε σ α → Config K C R ε σ α → Prop}

/-- What is maintained along a run: the invariant, and every call is safe. -/
theorem RelyGuarantee.reach_safe (rg : RelyGuarantee S D J Rely Guar)
    {cfg₀ cfg : Config K C R ε σ α} (h0 : J cfg₀) (hnil : cfg₀.threads = [])
    (h : Reach S D cfg₀ cfg) :
    J cfg ∧ ∀ i th, cfg.thread i = some th →
      Safe S D J (Rely i th.call) (Guar i th.call) i th.call th.proc cfg := by
  refine h.invariant (I := fun cfg => J cfg ∧ ∀ i th, cfg.thread i = some th →
      Safe S D J (Rely i th.call) (Guar i th.call) i th.call th.proc cfg) ?init ?call ?step
  case init =>
    refine ⟨h0, ?_⟩
    intro i th hth
    rw [Config.thread, hnil] at hth
    cases hth
  case call =>
    rintro cfg i k ⟨hJ, hsafe⟩ hfresh hD
    obtain ⟨hJ', hrely, hnew⟩ := rg.spawn cfg i k hJ hfresh hD
    refine ⟨hJ', ?_⟩
    intro j th hth
    rw [Config.thread_spawn] at hth
    split at hth
    · rename_i hij
      cases hth
      subst hij
      exact hnew
    · exact (hsafe j th hth).weaken (rg.trans j th.call) (hrely j th hth)
  case step =>
    rintro cfg i fault th c next ⟨hJ, hsafe⟩ hth hproc hready hfault hD
    have hself := hsafe i th hth
    rw [hproc] at hself
    obtain ⟨hguar, hnext⟩ :=
      hself cfg th fault (rg.refl i th.call cfg) hJ hth rfl hproc hready hfault hD
    refine ⟨rg.keeps i th.call _ _ hJ hguar, ?_⟩
    intro j th' hth'
    by_cases hj : j = i
    · subst hj
      rw [Config.thread_resume, if_pos (Config.id_of_thread hth)] at hth'
      cases hth'
      exact hnext
    · rw [Config.thread_resume_ne hth hj] at hth'
      exact (hsafe j th' hth').weaken (rg.trans j th'.call)
        (rg.compat i th.call j th' _ _ hJ hj hguar hth')

/-- **Composition.** The invariant holds in every reachable configuration. -/
theorem RelyGuarantee.reach (rg : RelyGuarantee S D J Rely Guar)
    {cfg₀ cfg : Config K C R ε σ α} (h0 : J cfg₀) (hnil : cfg₀.threads = [])
    (h : Reach S D cfg₀ cfg) : J cfg :=
  (rg.reach_safe h0 hnil h).1

end Composition

/-! ## Weakest preconditions over an owned view -/

/-- The parameters of a weakest precondition: the meaning of commands, when an
await may be carried out and with which error it may come back, the owned view
of the state, and what a step may change outside it. -/
structure Logic (C : Type) (R : C → Type) (ε σ V : Type) where
  exec : Exec C R ε σ
  allows : C → σ → Prop
  fails : C → σ → Prop
  view : σ → V
  frame : σ → σ → Prop

/-- From a state whose view is `v`, the call ends with `post`, whatever the
rest of the state is at each step, and all its steps stay within the frame. -/
def Proc.wp (L : Logic C R ε σ V) (post : Except ε α → V → Prop) : Proc C R ε α → V → Prop
  | .done r, v => post r v
  | .await c next, v => ∀ s, L.view s = v →
      (∀ a s', L.allows c s → L.exec c s = .ok (a, s') →
        L.frame s s' ∧ (next (.ok a)).wp L post (L.view s')) ∧
      (L.fails c s → ∀ e, (next (.error e)).wp L post v)

namespace Proc

variable {L : Logic C R ε σ V} {post : Except ε α → V → Prop} {v : V}

@[simp] theorem wp_done (r : Except ε α) :
    (Proc.done r : Proc C R ε α).wp L post v ↔ post r v := Iff.rfl

@[simp] theorem wp_throw (e : ε) :
    (Proc.throw e : Proc C R ε α).wp L post v ↔ post (.error e) v := Iff.rfl

@[simp] theorem wp_ofExcept (r : Except ε α) :
    (Proc.ofExcept r : Proc C R ε α).wp L post v ↔ post r v := Iff.rfl

theorem wp_call {c : C} {post : Except ε (R c) → V → Prop} :
    (Proc.call c : Proc C R ε (R c)).wp L post v ↔
      ∀ s, L.view s = v →
        (∀ a s', L.allows c s → L.exec c s = .ok (a, s') →
          L.frame s s' ∧ post (.ok a) (L.view s')) ∧
        (L.fails c s → ∀ e, post (.error e) v) := Iff.rfl

theorem wp_mono {post' : Except ε α → V → Prop} (himp : ∀ r v, post r v → post' r v)
    {p : Proc C R ε α} (h : p.wp L post v) : p.wp L post' v := by
  induction p generalizing v with
  | done r => exact himp r v h
  | await c next ih =>
    intro s hs
    refine ⟨fun a s' hallow he => ?_, fun hfail e => ih _ ((h s hs).2 hfail e)⟩
    obtain ⟨hframe, hnext⟩ := (h s hs).1 a s' hallow he
    exact ⟨hframe, ih _ hnext⟩

/-- Nothing is asked for. -/
theorem wp_trivial (hframe : ∀ s s', L.frame s s') (p : Proc C R ε α) (v : V) :
    p.wp L (fun _ _ => True) v := by
  induction p generalizing v with
  | done r => trivial
  | await c next ih =>
    exact fun s _ => ⟨fun a s' _ _ => ⟨hframe s s', ih _ _⟩, fun _ e => ih _ _⟩

/-- Sequential composition. -/
theorem wp_bind {p : Proc C R ε α} {k : α → Proc C R ε β} {post : Except ε β → V → Prop} :
    (p.bind k).wp L post v ↔
      p.wp L (fun r v' => match r with
        | .ok a => (k a).wp L post v'
        | .error e => post (.error e) v') v := by
  induction p generalizing v with
  | done r => cases r <;> exact Iff.rfl
  | await c next ih =>
    simp only [await_bind, wp]
    refine forall_congr' fun s => forall_congr' fun _ => and_congr ?_ ?_
    · exact forall_congr' fun a => forall_congr' fun s' => forall_congr' fun _ =>
        forall_congr' fun _ => and_congr Iff.rfl (ih _)
    · exact forall_congr' fun _ => forall_congr' fun e => ih _

/-- A caught error is a value. -/
theorem wp_attempt {p : Proc C R ε α} {post : Except ε (Except ε α) → V → Prop} :
    p.attempt.wp L post v ↔ p.wp L (fun r v' => post (.ok r) v') v := by
  induction p generalizing v with
  | done r => exact Iff.rfl
  | await c next ih =>
    simp only [attempt_await, wp]
    refine forall_congr' fun s => forall_congr' fun _ => and_congr ?_ ?_
    · exact forall_congr' fun a => forall_congr' fun s' => forall_congr' fun _ =>
        forall_congr' fun _ => and_congr Iff.rfl (ih _)
    · exact forall_congr' fun _ => forall_congr' fun e => ih _

theorem wp_rejectWhen {c : Prop} [Decidable c] {e : ε} {post : Except ε Unit → V → Prop} :
    (Proc.rejectWhen c e : Proc C R ε Unit).wp L post v ↔
      (c → post (.error e) v) ∧ (¬ c → post (.ok ()) v) := by
  unfold rejectWhen
  split
  · rename_i hc
    simp [hc]
  · rename_i hc
    simp [hc]

/-- A command, and what follows it. -/
theorem wp_call_bind {c : C} {k : R c → Proc C R ε β} {post : Except ε β → V → Prop}
    (hok : ∀ s a s', L.view s = v → L.allows c s → L.exec c s = .ok (a, s') →
      L.frame s s' ∧ (k a).wp L post (L.view s'))
    (herror : ∀ s, L.view s = v → L.fails c s → ∀ e, post (.error e) v) :
    ((call c).bind k).wp L post v :=
  fun s hs => ⟨fun a s' hallows hexec => hok s a s' hs hallows hexec, fun hfails => herror s hs hfails⟩

/-- A check, and what follows it. -/
theorem wp_rejectWhen_bind {c : Prop} [Decidable c] {e : ε} {k : Unit → Proc C R ε β}
    {post : Except ε β → V → Prop} (hreject : c → post (.error e) v)
    (hpass : ¬ c → (k ()).wp L post v) : ((rejectWhen c e).bind k).wp L post v := by
  unfold rejectWhen
  split
  · rename_i hc
    exact hreject hc
  · rename_i hc
    exact hpass hc

end Proc

/-- The owned view is `v'` at some point of the call, whichever awaits fail and
whatever the rest of the state is at each of them. -/
inductive Proc.Visits (exec : Exec C R ε σ) (view : σ → V) : Proc C R ε α → V → V → Prop
  | here (p : Proc C R ε α) (v : V) : Visits exec view p v v
  | step {c : C} {next : Except ε (R c) → Proc C R ε α} {v' : V} (fault : Option ε) (s : σ)
      (rest : Visits exec view (next (reply (outcome fault (exec c s))))
        (view (after (outcome fault (exec c s)) s)) v') :
      Visits exec view (.await c next) (view s) v'

namespace Proc

/-- Every state of a run is visited. -/
theorem visits_of_trace {exec : Exec C R ε σ} {φ : C → Option ε} (view : σ → V)
    {p : Proc C R ε α} {s : σ} {st : Step C σ} (h : st ∈ p.trace exec φ s) :
    p.Visits exec view (view s) (view st.after) := by
  induction p generalizing s with
  | done r => cases h
  | await c next ih =>
    refine .step (φ c) s ?_
    rw [trace] at h
    cases hout : outcome (φ c) (exec c s) with
    | ok r =>
      obtain ⟨a, s'⟩ := r
      simp only [hout] at h
      rcases List.mem_cons.mp h with rfl | hmem
      · exact .here _ _
      · exact ih (.ok a) hmem
    | error e =>
      simp only [hout] at h
      rcases List.mem_cons.mp h with rfl | hmem
      · exact .here _ _
      · exact ih (.error e) hmem

/-- So is the state in which it ends. -/
theorem visits_of_run (exec : Exec C R ε σ) (φ : C → Option ε) (view : σ → V) (p : Proc C R ε α)
    (s : σ) : p.Visits exec view (view s) (view (p.run exec φ s).2) := by
  induction p generalizing s with
  | done r => exact .here _ _
  | await c next ih =>
    refine .step (φ c) s ?_
    rw [run_await]
    cases outcome (φ c) (exec c s) with
    | ok r => exact ih (.ok r.1) r.2
    | error e => exact ih (.error e) s

/-- What the steps of a call keep of its view holds wherever it is. -/
theorem Visits.keeps {L : Logic C R ε σ V} {post : Except ε α → V → Prop} {I : V → Prop}
    (hallows : ∀ c s, L.allows c s) (hfails : ∀ c s, L.fails c s)
    (hframe : ∀ s s', L.frame s s' → I (L.view s) → I (L.view s')) {p : Proc C R ε α} {v v' : V}
    (h : p.Visits L.exec L.view v v') (hp : p.wp L post v) (hI : I v) : I v' := by
  induction h with
  | here p v => exact hI
  | @step c next v' fault s rest ih =>
    obtain ⟨hok, herror⟩ := hp s rfl
    cases hout : outcome fault (L.exec c s) with
    | ok r =>
      obtain ⟨a, s'⟩ := r
      rw [hout] at ih
      obtain ⟨hkeeps, hnext⟩ := hok a s' (hallows c s) (outcome_eq_ok hout).2
      exact ih hnext (hframe s s' hkeeps hI)
    | error e =>
      rw [hout] at ih
      exact ih (herror (hfails c s) e) hI

end Proc

/-- **Owned views.** A call that owns `L.view` and meets its weakest
precondition is safe among the others. -/
theorem safe_of_wp {S : System K C R ε σ α} {D : Discipline K C R ε σ α}
    {J : Config K C R ε σ α → Prop}
    {Rely Guar : Config K C R ε σ α → Config K C R ε σ α → Prop} {i : ℕ} {k : K}
    {L : Logic C R ε σ V} {Q : Except ε α → V → Prop}
    (hexec : L.exec = S.exec) (hframe : ∀ s, L.frame s s)
    (hrely : ∀ cfg cfg' th c next, Rely cfg cfg' → cfg'.thread i = some th →
      th.proc = .await c next → L.view cfg'.state = L.view cfg.state)
    (hallows : ∀ cfg th c, cfg.thread i = some th → th.call = k →
      D.onStep cfg th c false → L.allows c cfg.state)
    (hfails : ∀ cfg th c fault e, cfg.thread i = some th → th.call = k →
      (fault = none ∨ S.mayFail c = true) → outcome fault (S.exec c cfg.state) = .error e →
      D.onStep cfg th c true → L.fails c cfg.state)
    (hguar : ∀ cfg th (c : C) (next : Except ε (R c) → Proc C R ε α) r, J cfg →
      cfg.thread i = some th → th.call = k → th.proc = .await c next →
      L.frame cfg.state (after r cfg.state) →
      (∀ res, next (reply r) = .done res → Q res (L.view (after r cfg.state))) →
      Guar cfg (cfg.resume th next r))
    {p : Proc C R ε α} {cfg : Config K C R ε σ α} (h : p.wp L Q (L.view cfg.state)) :
    Safe S D J Rely Guar i k p cfg := by
  induction p generalizing cfg with
  | done r => trivial
  | await c next ih =>
    intro cfg' th fault hr hJ hth hk hproc hready hfault hD
    have hview := hrely _ _ th c next hr hth hproc
    have hw := h cfg'.state hview
    -- the rest of the call meets its precondition in the state the step leaves
    have hnext : L.frame cfg'.state (after (outcome fault (S.exec c cfg'.state)) cfg'.state) ∧
        (next (reply (outcome fault (S.exec c cfg'.state)))).wp L Q
          (L.view (after (outcome fault (S.exec c cfg'.state)) cfg'.state)) := by
      cases hout : outcome fault (S.exec c cfg'.state) with
      | error e =>
        rw [hout] at hD
        have hrest := hw.2 (hfails cfg' th c fault e hth hk hfault hout hD) e
        rw [← hview] at hrest
        exact ⟨hframe _, hrest⟩
      | ok r =>
        obtain ⟨a, s'⟩ := r
        rw [hout] at hD
        have hexec' := (outcome_eq_ok hout).2
        rw [← hexec] at hexec'
        exact hw.1 a s' (hallows cfg' th c hth hk hD) hexec'
    refine ⟨hguar cfg' th c next _ hJ hth hk hproc hnext.1 ?_, ih _ hnext.2⟩
    intro res hres
    have hpost := hnext.2
    rw [hres] at hpost
    exact hpost

/-- A call all of whose commands keep the guarantee on their own is safe,
whatever the others do. -/
theorem safe_of_issues {S : System K C R ε σ α} {D : Discipline K C R ε σ α}
    {J : Config K C R ε σ α → Prop}
    {Rely Guar : Config K C R ε σ α → Config K C R ε σ α → Prop} {i : ℕ} {k : K}
    {P : C → Prop}
    (hguar : ∀ cfg th (c : C) (next : Except ε (R c) → Proc C R ε α) fault, J cfg →
      cfg.thread i = some th → th.call = k → th.proc = .await c next → P c →
      D.onStep cfg th c (failed (outcome fault (S.exec c cfg.state))) →
      Guar cfg (cfg.resume th next (outcome fault (S.exec c cfg.state))))
    {p : Proc C R ε α} {cfg : Config K C R ε σ α} (h : p.Issues P) :
    Safe S D J Rely Guar i k p cfg := by
  induction p generalizing cfg with
  | done r => trivial
  | await c next ih =>
    intro cfg' th fault _ hJ hth hk hproc _ _ hD
    exact ⟨hguar cfg' th c next fault hJ hth hk hproc h.1 hD, ih _ (h.2 _)⟩

-- ---------------------------------------------------------------------------
-- Following one call
-- ---------------------------------------------------------------------------

/-- The logic of a call that owns `view`; every statement may fail that can. -/
def System.logic (S : System K C R ε σ α) (view : σ → V) : Logic C R ε σ V where
  exec := S.exec
  allows c s := S.ready c s = true
  fails c s := S.mayFail c = true ∨ ∃ e, S.exec c s = .error e
  view := view
  frame _ _ := True

section Following

variable {S : System K C R ε σ α} {D : Discipline K C R ε σ α} {cfg₀ cfg : Config K C R ε σ α}

/-- The step of a call that meets its precondition. -/
theorem wp_resume {view : σ → V} {post : Except ε α → V → Prop} {fault : Option ε} {c : C}
    {next : Except ε (R c) → Proc C R ε α} (hready : S.ready c cfg.state = true)
    (hfault : fault = none ∨ S.mayFail c = true)
    (h : (Proc.await c next).wp (S.logic view) post (view cfg.state)) :
    (next (reply (outcome fault (S.exec c cfg.state)))).wp (S.logic view) post
      (view (after (outcome fault (S.exec c cfg.state)) cfg.state)) := by
  obtain ⟨hok, herror⟩ := h cfg.state rfl
  cases hout : outcome fault (S.exec c cfg.state) with
  | ok r => exact (hok r.1 r.2 hready (outcome_eq_ok hout).2).2
  | error e =>
    refine herror ?_ e
    cases fault with
    | none => exact Or.inr ⟨e, hout⟩
    | some e' => exact Or.inl (hfault.resolve_left (by simp))

/-- **Own views.** No call changes the view of another; then each ends with its
postcondition, as if it ran alone. -/
theorem Reach.owns (view : ℕ → σ → V) (post : ℕ → K → Except ε α → V → Prop) {v₀ : V}
    {P : ℕ → C → Prop} {replies : (c : C) → R c → Prop} (h : Reach S D cfg₀ cfg)
    (hnil : cfg₀.threads = [])
    (hview : ∀ i, view i cfg₀.state = v₀)
    (hissues : ∀ i k, (S.prog i k).Always replies fun c _ => P i c)
    (hreplied : ∀ c s a s', S.exec c s = .ok (a, s') → replies c a)
    (hframe : ∀ i j c s a s', j ≠ i → P j c → S.exec c s = .ok (a, s') → view i s' = view i s)
    (hprog : ∀ i k, (S.prog i k).wp (S.logic (view i)) (post i k) v₀) :
    (∀ i, cfg.thread i = none → view i cfg.state = v₀) ∧
    ∀ i th, cfg.thread i = some th →
      th.proc.wp (S.logic (view i)) (post i th.call) (view i cfg.state) := by
  suffices hall : ((∀ i, cfg.thread i = none → view i cfg.state = v₀) ∧
      ∀ i th, cfg.thread i = some th →
        th.proc.wp (S.logic (view i)) (post i th.call) (view i cfg.state)) ∧
      ∀ i th, cfg.thread i = some th → th.proc.Always replies fun c _ => P i c from hall.1
  induction h with
  | refl =>
    have hnone : ∀ i th, cfg₀.thread i ≠ some th := by
      intro i th hth
      rw [Config.thread, hnil] at hth
      cases hth
    exact ⟨⟨fun i _ => hview i, fun i th hth => absurd hth (hnone i th)⟩,
      fun i th hth => absurd hth (hnone i th)⟩
  | @call cfg i k _ hfresh _ ih =>
    obtain ⟨⟨hunmade, hmeets⟩, hall⟩ := ih
    refine ⟨⟨fun j hj => ?_, fun j th hth => ?_⟩, fun j th hth => ?_⟩
    · rw [Config.thread_spawn] at hj
      split at hj
      · cases hj
      · exact hunmade j hj
    · rcases Config.thread_spawn_cases hth with ⟨rfl, rfl⟩ | hold
      · rw [Config.spawn_state, hunmade j hfresh]
        exact hprog j k
      · exact hmeets j th hold
    · rcases Config.thread_spawn_cases hth with ⟨rfl, rfl⟩ | hold
      · exact hissues j k
      · exact hall j th hold
  | @step cfg i fault th c next _ hth hproc hready hfault _ ih =>
    obtain ⟨⟨hunmade, hmeets⟩, hall⟩ := ih
    have hmine := hall i th hth
    rw [hproc] at hmine
    obtain ⟨hhere, hok, herror⟩ := hmine.inv
    have hself := hmeets i th hth
    rw [hproc] at hself
    have hothers : ∀ j, j ≠ i →
        view j (after (outcome fault (S.exec c cfg.state)) cfg.state) = view j cfg.state := by
      intro j hj
      cases hout : outcome fault (S.exec c cfg.state) with
      | error e => rfl
      | ok r => exact hframe j i c _ r.1 r.2 hj.symm hhere (outcome_eq_ok hout).2
    refine ⟨⟨fun j hj => ?_, fun j th' hth' => ?_⟩, fun j th' hth' => ?_⟩
    · have hji : j ≠ i := by
        rintro rfl
        rw [Config.thread_resume, if_pos (Config.id_of_thread hth)] at hj
        cases hj
      rw [Config.resume_state, hothers j hji]
      exact hunmade j (by rwa [Config.thread_resume_ne hth hji] at hj)
    · rcases Config.thread_resume_cases hth hth' with ⟨rfl, rfl⟩ | hold
      · exact wp_resume hready hfault hself
      · by_cases hji : j = i
        · subst hji
          rw [Config.thread_resume, if_pos (Config.id_of_thread hth)] at hth'
          cases hth'
          exact wp_resume hready hfault hself
        · rw [Config.resume_state, hothers j hji]
          exact hmeets j th' hold
    · rcases Config.thread_resume_cases hth hth' with ⟨rfl, rfl⟩ | hold
      · cases hout : outcome fault (S.exec c cfg.state) with
        | error e => exact herror e
        | ok r => exact hok r.1 (hreplied c _ r.1 r.2 (outcome_eq_ok hout).2)
      · exact hall j th' hold

/-- While the state is within `W`, every command of the call is carried out, and
it ends as `post` says. -/
def Proc.Meets (exec : Exec C R ε σ) (W : σ → Prop) (post : Except ε α → Prop) :
    Proc C R ε α → Prop
  | .done r => post r
  | .await c next => ∀ s, W s → ∃ a s', exec c s = .ok (a, s') ∧ (next (.ok a)).Meets exec W post

namespace Proc

variable {exec : Exec C R ε σ} {W : σ → Prop}

theorem meets_call_bind {c : C} {k : R c → Proc C R ε β} {post : Except ε β → Prop}
    (h : ∀ s, W s → ∃ a s', exec c s = .ok (a, s') ∧ (k a).Meets exec W post) :
    ((Proc.call c).bind k).Meets exec W post := h

theorem meets_bind {p : Proc C R ε β} {k : β → Proc C R ε α} {post : Except ε α → Prop}
    (h : p.Meets exec W fun r => ((done r).bind k).Meets exec W post) :
    (p.bind k).Meets exec W post := by
  induction p with
  | done r => exact h
  | await c next ih =>
    intro s hs
    obtain ⟨a, s', hexec, hnext⟩ := h s hs
    exact ⟨a, s', hexec, ih _ hnext⟩

theorem meets_attempt {p : Proc C R ε α} {post : Except ε (Except ε α) → Prop}
    (h : p.Meets exec W fun r => post (.ok r)) : p.attempt.Meets exec W post := by
  induction p with
  | done r => exact h
  | await c next ih =>
    intro s hs
    obtain ⟨a, s', hexec, hnext⟩ := h s hs
    exact ⟨a, s', hexec, ih _ hnext⟩

end Proc

/-- **One call, in states within `W`.** -/
theorem Reach.meets {W : σ → Prop} {post : Except ε α → Prop} {i : ℕ} {th₀ : Thread K C R ε α}
    (hstep : ∀ cfg th c f, Reach S D cfg₀ cfg → D.onStep cfg th c f → th.id = i →
      W cfg.state ∧ (f = true → failed (S.exec c cfg.state) = true))
    (hth₀ : cfg₀.thread i = some th₀) (hmeets : th₀.proc.Meets S.exec W post)
    (h : Reach S D cfg₀ cfg) :
    ∃ th, cfg.thread i = some th ∧ th.call = th₀.call ∧ th.proc.Meets S.exec W post := by
  induction h with
  | refl => exact ⟨th₀, hth₀, rfl, hmeets⟩
  | @call cfg j k _ hfresh _ ih =>
    obtain ⟨th, hth, hcall, hrest⟩ := ih
    refine ⟨th, ?_, hcall, hrest⟩
    have hne : j ≠ i := by
      rintro rfl
      rw [hfresh] at hth
      cases hth
    rw [Config.thread_spawn, if_neg hne, hth]
  | @step cfg j fault th c next hreach hth hproc _ _ hD ih =>
    obtain ⟨thi, hthi, hcall, hrest⟩ := ih
    by_cases hji : i = j
    · subst hji
      obtain rfl := Option.some.inj (hth.symm.trans hthi)
      obtain ⟨hW, hfails⟩ := hstep cfg th c _ hreach hD (Config.id_of_thread hth)
      rw [hproc] at hrest
      obtain ⟨a, s', hexec, hnext⟩ := hrest cfg.state hW
      refine ⟨{ th with
          begun := true, proc := next (reply (outcome fault (S.exec c cfg.state))) },
        by rw [Config.thread_resume, if_pos (Config.id_of_thread hth)], hcall, ?_⟩
      -- the command is carried out, as nothing fails that it does not refuse
      cases hout : outcome fault (S.exec c cfg.state) with
      | ok r =>
        have hsame := (outcome_eq_ok hout).2
        rw [hexec] at hsame
        cases hsame
        exact hnext
      | error e =>
        rw [hout] at hfails
        have hrefused := hfails rfl
        rw [hexec] at hrefused
        cases hrefused
    · refine ⟨thi, ?_, hcall, hrest⟩
      rw [Config.thread_resume_ne hth hji, hthi]

end Following

end Async
