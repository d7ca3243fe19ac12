import NexaFx.Lib.Exclusive

/-!
# Final values

A server keeps a thing that is meant to stay as it is from the time on at which
it has a final value. Calls look the thing up and write it later; a call that
looks it up when it is final leaves it alone.

* `Proc.Clear` — the call writes the thing only after another lookup;
* `Reach.final` — when the thing becomes final only while every other call is
  clear of it, the final value stays.
-/

namespace Async

variable {K C : Type} {R : C → Type} {ε σ α β V : Type}

/-- No `writes` command comes before the next of the `reads`. -/
def Proc.Clear (writes reads : C → Bool) : Proc C R ε α → Prop
  | .done _ => True
  | .await c next => writes c = false ∧ (reads c = false → ∀ r, (next r).Clear writes reads)

namespace Proc

variable {writes reads : C → Bool}

theorem clear_done (r : Except ε α) : (done r : Proc C R ε α).Clear writes reads := trivial

theorem clear_read_bind {c : C} {k : R c → Proc C R ε β} (hwrites : writes c = false)
    (hreads : reads c = true) : ((call c).bind k).Clear writes reads :=
  ⟨hwrites, fun h => absurd h (by simp [hreads])⟩

theorem clear_call_bind {c : C} {k : R c → Proc C R ε β} (hwrites : writes c = false)
    (hk : ∀ a, (k a).Clear writes reads) : ((call c).bind k).Clear writes reads := by
  refine ⟨hwrites, fun _ r => ?_⟩
  cases r with
  | ok a => exact hk a
  | error e => trivial

theorem clear_rejectWhen_bind {c : Prop} [Decidable c] {e : ε} {k : Unit → Proc C R ε β}
    (hk : ¬ c → (k ()).Clear writes reads) : ((rejectWhen c e).bind k).Clear writes reads := by
  unfold rejectWhen
  split
  · trivial
  · rename_i hc
    exact hk hc

/-- A call that has ended or is at a lookup. -/
theorem clear_of_waitsOn {p : Proc C R ε α} (h : p.waitsOn.all reads = true)
    (hreads : ∀ c, reads c = true → writes c = false) : p.Clear writes reads := by
  cases p with
  | done r => trivial
  | await c next =>
    have hc : reads c = true := h
    exact ⟨hreads c hc, fun hother => absurd hc (by simp [hother])⟩

theorem clear_of_issues {p : Proc C R ε α} (h : p.Issues fun c => writes c = false) :
    p.Clear writes reads := by
  induction p with
  | done r => trivial
  | await c next ih => exact ⟨h.1, fun _ r => ih r (h.2 r)⟩

end Proc

/-- The thing: its value, once that is final, and the commands about it. -/
structure Finality (K C : Type) (σ V : Type) where
  value : σ → Option V
  writes : C → Bool
  reads : C → Bool
  /-- The call may come to the command in this state. -/
  allows : K → C → σ → Prop

/-- What a call does around its lookups and writes: after a write it is clear,
and after a lookup that finds the thing final. -/
structure Finality.Stops (F : Finality K C σ V) (exec : Exec C R ε σ) (k : K) (c : C)
    (next : Except ε (R c) → Proc C R ε α) : Prop where
  written : F.writes c = true → ∀ r, (next r).Clear F.writes F.reads
  found : F.reads c = true → ∀ s a s', (F.value s).isSome = true → F.allows k c s →
    exec c s = .ok (a, s') → (next (.ok a)).Clear F.writes F.reads
  failed : F.reads c = true → ∀ e, (next (.error e)).Clear F.writes F.reads

/-- What has to be shown of the calls of a server. -/
structure Lasting (S : System K C R ε σ α) (D : Discipline K C R ε σ α) (F : Finality K C σ V)
    (replies : (c : C) → R c → Prop) : Prop where
  prog : ∀ i k, (S.prog i k).Always replies fun c next => F.Stops S.exec k c next
  /-- A new call is clear. -/
  fresh : ∀ i k, (S.prog i k).Clear F.writes F.reads
  replied : ∀ c s a s', S.exec c s = .ok (a, s') → replies c a
  quiet : ∀ c s a s', F.writes c = false → S.exec c s = .ok (a, s') → F.value s' = F.value s
  allows : ∀ cfg th c f, D.onStep cfg th c f → F.allows th.call c cfg.state
  /-- The thing becomes final only while the other calls are clear. -/
  alone : ∀ cfg th c a s', D.onStep cfg th c false → F.writes c = true →
    S.exec c cfg.state = .ok (a, s') → (F.value s').isSome = true →
    ∀ j thj, cfg.thread j = some thj → j ≠ th.id → thj.proc.Clear F.writes F.reads

section Lasting

variable {S : System K C R ε σ α} {D : Discipline K C R ε σ α} {F : Finality K C σ V}
  {replies : (c : C) → R c → Prop} {cfg₀ cfg cfg' : Config K C R ε σ α}

/-- While the thing is final, every call is clear of it. -/
def Finality.Kept (F : Finality K C σ V) (cfg : Config K C R ε σ α) : Prop :=
  (F.value cfg.state).isSome = true →
    ∀ i th, cfg.thread i = some th → th.proc.Clear F.writes F.reads

/-- The step of a call that is clear. -/
theorem Lasting.clear_next (X : Lasting S D F replies) {th : Thread K C R ε α} {c : C}
    {next : Except ε (R c) → Proc C R ε α} {fault : Option ε}
    (hclear : (Proc.await c next).Clear F.writes F.reads) (hstops : F.Stops S.exec th.call c next)
    (hfinal : (F.value cfg.state).isSome = true)
    (hD : D.onStep cfg th c (failed (outcome fault (S.exec c cfg.state)))) :
    (next (reply (outcome fault (S.exec c cfg.state)))).Clear F.writes F.reads := by
  cases hreads : F.reads c with
  | false => exact hclear.2 hreads _
  | true =>
    cases hout : outcome fault (S.exec c cfg.state) with
    | error e => exact hstops.failed hreads e
    | ok r =>
      exact hstops.found hreads cfg.state r.1 r.2 hfinal (X.allows cfg th c _ hD)
        (outcome_eq_ok hout).2

/-- **Step lemma.** A final value stays, and the calls stay clear of it. -/
theorem Lasting.step (X : Lasting S D F replies) {i : ℕ} {fault : Option ε} {th : Thread K C R ε α}
    {c : C} {next : Except ε (R c) → Proc C R ε α} (hkept : F.Kept cfg)
    (hth : cfg.thread i = some th) (hproc : th.proc = .await c next)
    (hstops : F.Stops S.exec th.call c next)
    (hD : D.onStep cfg th c (failed (outcome fault (S.exec c cfg.state)))) :
    F.Kept (cfg.resume th next (outcome fault (S.exec c cfg.state))) ∧
    ((F.value cfg.state).isSome = true →
      F.value (cfg.resume th next (outcome fault (S.exec c cfg.state))).state =
        F.value cfg.state) := by
  have hself : ∀ thj, (cfg.resume th next (outcome fault (S.exec c cfg.state))).thread i =
      some thj → thj.proc = next (reply (outcome fault (S.exec c cfg.state))) := by
    intro thj hthj
    rw [Config.thread_resume, if_pos (Config.id_of_thread hth)] at hthj
    cases hthj
    rfl
  have hothers : ∀ {j thj}, (cfg.resume th next (outcome fault (S.exec c cfg.state))).thread j =
      some thj → j ≠ i → cfg.thread j = some thj := by
    intro j thj hthj hji
    rwa [Config.thread_resume_ne hth hji] at hthj
  cases hvalue : F.value cfg.state with
  | some v =>
    have hfinal : (F.value cfg.state).isSome = true := by rw [hvalue]; rfl
    have hmine : (Proc.await c next).Clear F.writes F.reads := hproc ▸ hkept hfinal i th hth
    refine ⟨fun _ j thj hthj => ?_, fun _ => ?_⟩
    · by_cases hji : j = i
      · subst hji
        rw [hself thj hthj]
        exact X.clear_next hmine hstops hfinal hD
      · exact hkept hfinal j thj (hothers hthj hji)
    · rw [← hvalue, Config.resume_state]
      cases hout : outcome fault (S.exec c cfg.state) with
      | error e => rfl
      | ok r => exact X.quiet c _ r.1 r.2 hmine.1 (outcome_eq_ok hout).2
  | none =>
    refine ⟨fun hfinal => ?_, fun h => by cases h⟩
    rw [Config.resume_state] at hfinal
    cases hout : outcome fault (S.exec c cfg.state) with
    | error e =>
      rw [hout, after_error, hvalue] at hfinal
      cases hfinal
    | ok r =>
      rw [hout, after_ok] at hfinal
      have hexec := (outcome_eq_ok hout).2
      -- only a write makes it final
      have hwrites : F.writes c = true := by
        by_contra hquiet
        rw [X.quiet c _ r.1 r.2 (by simpa using hquiet) hexec, hvalue] at hfinal
        cases hfinal
      rw [hout] at hself hothers hD
      intro j thj hthj
      by_cases hji : j = i
      · subst hji
        rw [hself thj hthj]
        exact hstops.written hwrites _
      · refine X.alone cfg th c r.1 r.2 hD hwrites hexec hfinal j thj (hothers hthj hji) ?_
        rw [Config.id_of_thread hth]
        exact hji

/-- Every call stays as its program has it, and clear of what is final. -/
theorem Lasting.kept (X : Lasting S D F replies) (hnil : cfg₀.threads = [])
    (h : Reach S D cfg₀ cfg) :
    F.Kept cfg ∧ ∀ i th, cfg.thread i = some th →
      th.proc.Always replies fun c next => F.Stops S.exec th.call c next := by
  refine h.invariant_always (I := F.Kept) (Q := fun _ k c next => F.Stops S.exec k c next) ?_ hnil
    X.prog (fun cfg i k hkept _ _ => ?_) fun cfg i fault th c next hkept hth hproc hstops hD => ?_
  · intro _ i th hth
    rw [Config.thread, hnil] at hth
    cases hth
  · intro hfinal j thj hthj
    rcases Config.thread_spawn_cases hthj with ⟨rfl, rfl⟩ | hold
    · exact X.fresh j k
    · exact hkept hfinal j thj hold
  · exact ⟨(X.step hkept hth hproc hstops hD).1,
      fun a s' hout => X.replied c _ a s' (outcome_eq_ok hout).2⟩

/-- **Final values stay.** -/
theorem Reach.final (X : Lasting S D F replies) (hnil : cfg₀.threads = [])
    (h : Reach S D cfg₀ cfg) (h' : Reach S D cfg cfg')
    (hfinal : (F.value cfg.state).isSome = true) : F.value cfg'.state = F.value cfg.state := by
  obtain ⟨hkept, hall⟩ := X.kept hnil h
  have hlater := h'.invariant_always_from
    (I := fun cfg' => F.Kept cfg' ∧ F.value cfg'.state = F.value cfg.state)
    (G := fun _ => replies) (Q := fun _ k c next => F.Stops S.exec k c next) ⟨hkept, rfl⟩ hall X.prog
    (fun cfg' i k hI _ _ => ⟨?_, hI.2⟩) fun cfg' i fault th c next hI hth hproc hstops _ hD => ?_
  · exact hlater.1.2
  · intro hfinal' j thj hthj
    rcases Config.thread_spawn_cases hthj with ⟨rfl, rfl⟩ | hold
    · exact X.fresh j k
    · exact hI.1 hfinal' j thj hold
  · obtain ⟨hkept', hstays⟩ := X.step hI.1 hth hproc hstops hD
    refine ⟨⟨hkept', ?_⟩, fun a s' hout => X.replied c _ a s' (outcome_eq_ok hout).2⟩
    rw [hstays (by rw [hI.2]; exact hfinal)]
    exact hI.2

end Lasting

end Async
