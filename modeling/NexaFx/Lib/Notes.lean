import NexaFx.Lib.Pool

/-!
# Runs with notes

What is said of a run is often about more than where it ends: what a call was
answered, and when. An `Annotated` configuration carries notes, to which each
answered command is added; the system itself never reads them.

* `System.follow` — a run with its notes;
* `System.follow_invariant` — an invariant of each step holds after every run;
* `System.follow_filter` — a run from which events are left out, when the events
  that stay can be matched and those that go change nothing that matters.
-/

namespace Async

variable {K C : Type} {R : C → Type} {ε σ α N : Type}

/-- A configuration with what was noted on the way to it. -/
structure Annotated (K C : Type) (R : C → Type) (ε σ α N : Type) where
  cfg : Config K C R ε σ α
  notes : N

/-- What the answer to a command of call `i` adds to the notes. -/
abbrev Noting (C : Type) (R : C → Type) (ε N : Type) :=
  N → ℕ → (c : C) → Except ε (R c) → N

namespace System

variable (S : System K C R ε σ α) (note : Noting C R ε N)

def noted (run : Annotated K C R ε σ α N) : Event K ε → N
  | .call _ _ => run.notes
  | .step i fault =>
    match run.cfg.thread i with
    | none => run.notes
    | some th =>
      match th.proc with
      | .done _ => run.notes
      | .await c _ => note run.notes i c (reply (outcome fault (S.exec c run.cfg.state)))

def annotate (run : Annotated K C R ε σ α N) (e : Event K ε) :
    Option (Annotated K C R ε σ α N) :=
  (S.step run.cfg e).map fun cfg => ⟨cfg, S.noted note run e⟩

def follow (run : Annotated K C R ε σ α N) :
    List (Event K ε) → Option (Annotated K C R ε σ α N)
  | [] => some run
  | e :: es => (S.annotate note run e).bind fun run' => follow run' es

variable {S} {note}
variable {run run' : Annotated K C R ε σ α N} {e : Event K ε} {es : List (Event K ε)}

/-- Everything an event can do: make a fresh call, or answer a command and note
the answer. -/
theorem annotate_cases (h : S.annotate note run e = some run') :
    (∃ i k, e = .call i k ∧ run.cfg.thread i = none ∧
      run' = ⟨run.cfg.spawn i k (S.prog i k), run.notes⟩) ∨
    (∃ i fault th c next, e = .step i fault ∧ run.cfg.thread i = some th ∧
      th.proc = .await c next ∧ S.ready c run.cfg.state = true ∧
      (fault = none ∨ S.mayFail c = true) ∧
      run' = ⟨run.cfg.resume th next (outcome fault (S.exec c run.cfg.state)),
        note run.notes i c (reply (outcome fault (S.exec c run.cfg.state)))⟩) := by
  obtain ⟨cfg', hcfg, rfl⟩ := Option.map_eq_some_iff.mp h
  rcases S.step_cases hcfg with ⟨i, k, rfl, hfresh, rfl⟩ |
    ⟨i, fault, th, c, next, rfl, hth, hproc, hready, hfault, rfl⟩
  · exact Or.inl ⟨i, k, rfl, hfresh, rfl⟩
  · refine Or.inr ⟨i, fault, th, c, next, rfl, hth, hproc, hready, hfault, ?_⟩
    simp only [noted, hth, hproc]

theorem annotate_call {i : ℕ} (h : run.cfg.thread i = none) (k : K) :
    S.annotate note run (.call i k) = some ⟨run.cfg.spawn i k (S.prog i k), run.notes⟩ := by
  simp only [annotate, step, h, Option.map_some, noted]

theorem annotate_step {i : ℕ} {fault : Option ε} {th : Thread K C R ε α} {c : C}
    {next : Except ε (R c) → Proc C R ε α} (hth : run.cfg.thread i = some th)
    (hproc : th.proc = .await c next) (hready : S.ready c run.cfg.state = true)
    (hfault : fault = none ∨ S.mayFail c = true) :
    S.annotate note run (.step i fault) =
      some ⟨run.cfg.resume th next (outcome fault (S.exec c run.cfg.state)),
        note run.notes i c (reply (outcome fault (S.exec c run.cfg.state)))⟩ := by
  have hguard : (S.ready c run.cfg.state && (fault.isNone || S.mayFail c)) = true := by
    rw [hready, Bool.true_and, Bool.or_eq_true, Option.isNone_iff_eq_none]
    exact hfault
  simp only [annotate, step, hth, hproc, noted, if_pos hguard, Option.map_some]

/-- A run keeps what each of its steps keeps. -/
theorem follow_invariant {I : Annotated K C R ε σ α N → Prop}
    (hstep : ∀ run e run', I run → S.annotate note run e = some run' → I run')
    (h : I run) (hrun : S.follow note run es = some run') : I run' := by
  induction es generalizing run with
  | nil =>
    cases hrun
    exact h
  | cons e es ih =>
    obtain ⟨run₁, hfirst, hrest⟩ := Option.bind_eq_some_iff.mp hrun
    exact ih (hstep run e run₁ h hfirst) hrest

/-- What was called stays known. -/
theorem called_annotate {i : ℕ} {k : K} (h : S.annotate note run e = some run')
    (hcalled : run.cfg.called i = some k) : run'.cfg.called i = some k := by
  rcases annotate_cases h with ⟨j, k', rfl, hfresh, rfl⟩ |
    ⟨j, fault, th, c, next, rfl, hth, -, -, -, rfl⟩
  · have hne : j ≠ i := by
      rintro rfl
      rw [Config.called, hfresh] at hcalled
      cases hcalled
    rw [Config.called_spawn, if_neg hne]
    exact hcalled
  · rw [Config.called_resume hth]
    exact hcalled

theorem called_follow {i : ℕ} {k : K} (hcalled : run.cfg.called i = some k)
    (hrun : S.follow note run es = some run') : run'.cfg.called i = some k :=
  follow_invariant (I := fun run => run.cfg.called i = some k)
    (fun _ _ _ h hstep => called_annotate hstep h) hcalled hrun

/-- A run to `last` of which only some events happen: those that are kept are
matched from related runs, and those left out keep the runs related. -/
theorem follow_filter {Rel : Annotated K C R ε σ α N → Annotated K C R ε σ α N → Prop}
    {keep : Event K ε → Bool} {alone last : Annotated K C R ε σ α N}
    (hkept : ∀ run alone e run' es, Rel run alone → S.annotate note run e = some run' →
      S.follow note run' es = some last → keep e = true →
      ∃ alone', S.annotate note alone e = some alone' ∧ Rel run' alone')
    (hleft : ∀ run alone e run' es, Rel run alone → S.annotate note run e = some run' →
      S.follow note run' es = some last → keep e = false → Rel run' alone)
    (h : Rel run alone) (hrun : S.follow note run es = some last) :
    ∃ alone', S.follow note alone (es.filter keep) = some alone' ∧ Rel last alone' := by
  induction es generalizing run alone with
  | nil =>
    cases hrun
    exact ⟨alone, rfl, h⟩
  | cons e es ih =>
    obtain ⟨run₁, hstep, hrest⟩ := Option.bind_eq_some_iff.mp hrun
    cases hkeep : keep e with
    | false =>
      rw [List.filter_cons_of_neg (by rw [hkeep]; exact Bool.false_ne_true)]
      exact ih (hleft run alone e run₁ es h hstep hrest hkeep) hrest
    | true =>
      obtain ⟨alone₁, hstep', hrel⟩ := hkept run alone e run₁ es h hstep hrest hkeep
      obtain ⟨alone', hfollow, hlast⟩ := ih hrel hrest
      rw [List.filter_cons_of_pos hkeep]
      exact ⟨alone', Option.bind_eq_some_iff.mpr ⟨alone₁, hstep', hfollow⟩, hlast⟩

end System

end Async
