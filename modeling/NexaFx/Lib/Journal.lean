import NexaFx.Lib.Pool

/-!
# Journals

Some commands leave entries in a journal, and which entries a command leaves is
written in the command itself and in its reply. What a call has put into the
journal at any moment is then a matter of its program and of the replies alone,
whatever else the other calls do.

* `Proc.Journals` — wherever the call is, its entries so far satisfy `P`, and at
  its end `Q`;
* `Reach.journals` — so they do in every interleaving, when each call writes
  entries of its own only;
* `sum_by_author` — the journal added up call by call.
-/

namespace Async

variable {K C : Type} {R : C → Type} {ε σ α β E : Type}

/-- Wherever the call is, while the replies satisfy `G`, the entries it has made
satisfy `P`; with `l` made so far, it ends with entries that satisfy `Q`. -/
def Proc.Journals (G : (c : C) → R c → Prop) (O : (c : C) → R c → List E) (P : List E → Prop)
    (Q : Except ε α → List E → Prop) : Proc C R ε α → List E → Prop
  | .done r, l => P l ∧ Q r l
  | .await c next, l => P l ∧ (∀ a, G c a → (next (.ok a)).Journals G O P Q (l ++ O c a)) ∧
      ∀ e, (next (.error e)).Journals G O P Q l

namespace Proc

section Journals

variable {G : (c : C) → R c → Prop} {O : (c : C) → R c → List E} {P : List E → Prop} {l : List E}

theorem Journals.here {p : Proc C R ε α} {Q : Except ε α → List E → Prop}
    (h : p.Journals G O P Q l) : P l := by
  cases p with
  | done r => exact h.1
  | await c next => exact h.1

/-- At the end of the call. -/
theorem Journals.ended {r : Except ε α} {Q : Except ε α → List E → Prop}
    (h : (Proc.done r : Proc C R ε α).Journals G O P Q l) : Q r l := h.2

/-- One command. -/
theorem journals_call {c : C} {Q : Except ε (R c) → List E → Prop} (h : P l)
    (hok : ∀ a, G c a → P (l ++ O c a) ∧ Q (.ok a) (l ++ O c a))
    (herror : ∀ e, Q (.error e) l) :
    (Proc.call c : Proc C R ε (R c)).Journals G O P Q l :=
  ⟨h, hok, fun e => ⟨h, herror e⟩⟩

/-- A part that makes no entries. -/
theorem journals_of_issues {p : Proc C R ε α} {Q : Except ε α → List E → Prop}
    (hp : p.Issues fun c => ∀ a, O c a = []) (h : P l) (hpost : ∀ r, Q r l) :
    p.Journals G O P Q l := by
  induction p with
  | done r => exact ⟨h, hpost r⟩
  | await c next ih =>
    refine ⟨h, fun a _ => ?_, fun e => ih _ (hp.2 _)⟩
    rw [hp.1 a, List.append_nil]
    exact ih _ (hp.2 _)

theorem journals_mono {p : Proc C R ε α} {Q Q' : Except ε α → List E → Prop}
    (himp : ∀ r l, Q r l → Q' r l) (h : p.Journals G O P Q l) :
    p.Journals G O P Q' l := by
  induction p generalizing l with
  | done r => exact ⟨h.1, himp r l h.2⟩
  | await c next ih => exact ⟨h.1, fun a ha => ih _ (h.2.1 a ha), fun e => ih _ (h.2.2 e)⟩

/-- Sequential composition. -/
theorem journals_bind {p : Proc C R ε α} {k : α → Proc C R ε β}
    {Q : Except ε β → List E → Prop}
    (h : p.Journals G O P (fun r l' => match r with
      | .ok a => (k a).Journals G O P Q l'
      | .error e => Q (.error e) l') l) : (p.bind k).Journals G O P Q l := by
  induction p generalizing l with
  | done r =>
    cases r with
    | ok a => exact h.2
    | error e => exact h
  | await c next ih => exact ⟨h.1, fun a ha => ih _ (h.2.1 a ha), fun e => ih _ (h.2.2 e)⟩

/-- A caught error is a value. -/
theorem journals_attempt {p : Proc C R ε α} {Q : Except ε (Except ε α) → List E → Prop}
    (h : p.Journals G O P (fun r l' => Q (.ok r) l') l) :
    p.attempt.Journals G O P Q l := by
  induction p generalizing l with
  | done r => exact h
  | await c next ih => exact ⟨h.1, fun a ha => ih _ (h.2.1 a ha), fun e => ih _ (h.2.2 e)⟩

/-- A `try`, and what follows it. -/
theorem journals_try_bind {p : Proc C R ε α} {k : Except ε α → Proc C R ε β}
    {Q : Except ε β → List E → Prop}
    (h : p.Journals G O P (fun r l' => (k r).Journals G O P Q l') l) :
    (p.attempt.bind k).Journals G O P Q l :=
  journals_bind (journals_attempt h)

/-- A check, and what follows it. -/
theorem journals_rejectWhen_bind {c : Prop} [Decidable c] {e : ε} {k : Unit → Proc C R ε α}
    {Q : Except ε α → List E → Prop} (h : P l) (hreject : Q (.error e) l)
    (hpass : ¬ c → (k ()).Journals G O P Q l) :
    ((rejectWhen c e).bind k).Journals G O P Q l := by
  unfold rejectWhen
  split
  · exact ⟨h, hreject⟩
  · rename_i hc
    exact hpass hc

/-- A part that makes no entries, and what follows it. -/
theorem journals_quiet_bind {p : Proc C R ε α} {k : α → Proc C R ε β}
    {Q : Except ε β → List E → Prop} (hp : p.Issues fun c => ∀ a, O c a = []) (h : P l)
    (hk : ∀ a, (k a).Journals G O P Q l) (herror : ∀ e, Q (.error e) l) :
    (p.bind k).Journals G O P Q l := by
  refine journals_bind (journals_of_issues hp h fun r => ?_)
  cases r with
  | ok a => exact hk a
  | error e => exact herror e

/-- What is returned does not matter. -/
theorem journals_return {p : Proc C R ε α} (f : α → β)
    (h : p.Journals G O P (fun _ _ => True) l) :
    (p.bind fun a => .done (.ok (f a))).Journals G O P (fun _ _ => True) l := by
  induction p generalizing l with
  | done r =>
    cases r with
    | ok a => exact ⟨h.1, trivial⟩
    | error e => exact h
  | await c next ih => exact ⟨h.1, fun a ha => ih _ (h.2.1 a ha), fun e => ih _ (h.2.2 e)⟩

end Journals

end Proc

-- ---------------------------------------------------------------------------
-- The journal of all calls
-- ---------------------------------------------------------------------------

section Runs

variable {S : System K C R ε σ α} {D : Discipline K C R ε σ α} {cfg₀ cfg : Config K C R ε σ α}

/-- The calls are those that the discipline admits. -/
theorem Reach.disciplined {P : K → Prop} (hcall : ∀ cfg i k, D.onCall cfg i k → P k)
    (h : Reach S D cfg₀ cfg) (hnil : cfg₀.threads = []) {i : ℕ} {th : Thread K C R ε α}
    (hth : cfg.thread i = some th) : P th.call := by
  refine Reach.invariant (I := fun cfg : Config K C R ε σ α => ∀ i th, cfg.thread i = some th →
    P th.call) ?_ ?_ ?_ h i th hth
  · intro i th hth
    rw [Config.thread, hnil] at hth
    cases hth
  · intro cfg i k hI _ hk j th hth
    rcases Config.thread_spawn_cases hth with ⟨rfl, rfl⟩ | hold
    · exact hcall _ _ _ hk
    · exact hI j th hold
  · intro cfg i fault th c next hI hth _ _ _ _ j th' hth'
    rcases Config.thread_resume_cases hth hth' with ⟨rfl, rfl⟩ | hold
    · exact hI j th hth
    · exact hI j th' hold

/-- No two calls have the same identity. -/
theorem Reach.nodup_threads (h : Reach S D cfg₀ cfg) (hnil : cfg₀.threads = []) :
    (cfg.threads.map Thread.id).Nodup := by
  induction h with
  | refl =>
    rw [hnil]
    exact List.nodup_nil
  | call i k _ _ _ ih => exact Table.nodup_put Thread.id ih
  | step i fault th c next _ _ _ _ _ _ ih => exact Table.nodup_put Thread.id ih

/-- **Journals.** Each call makes the entries its program says, in every
interleaving. -/
theorem Reach.journals (journal : ℕ → σ → List E) {O : ℕ → (c : C) → R c → List E}
    {P : ℕ → K → List E → Prop} {Q : ℕ → K → Except ε α → List E → Prop}
    {G : (c : C) → R c → Prop} (h : Reach S D cfg₀ cfg) (hnil : cfg₀.threads = [])
    (hempty : ∀ i, journal i cfg₀.state = [])
    (hout : ∀ i c s a s', S.exec c s = .ok (a, s') → journal i s' = journal i s ++ O i c a)
    (hreplied : ∀ c s a s', S.exec c s = .ok (a, s') → G c a)
    (hown : ∀ i j k, i ≠ j → (S.prog i k).Issues fun c => ∀ a, O j c a = [])
    (hprog : ∀ i k, (S.prog i k).Journals G (O i) (P i k) (Q i k) []) :
    (∀ i, cfg.thread i = none → journal i cfg.state = []) ∧
    ∀ i th, cfg.thread i = some th →
      th.proc.Journals G (O i) (P i th.call) (Q i th.call) (journal i cfg.state) := by
  suffices hall : (∀ i, cfg.thread i = none → journal i cfg.state = []) ∧
      ∀ i th, cfg.thread i = some th →
        th.proc.Journals G (O i) (P i th.call) (Q i th.call) (journal i cfg.state) ∧
        ∀ j, i ≠ j → th.proc.Issues fun c => ∀ a, O j c a = [] from
    ⟨hall.1, fun i th hth => (hall.2 i th hth).1⟩
  induction h with
  | refl =>
    refine ⟨fun i _ => hempty i, fun i th hth => ?_⟩
    rw [Config.thread, hnil] at hth
    cases hth
  | @call cfg i k _ hfresh _ ih =>
    refine ⟨fun j hj => ?_, fun j th hth => ?_⟩
    · rw [Config.thread_spawn] at hj
      split at hj
      · cases hj
      · exact ih.1 j hj
    · rcases Config.thread_spawn_cases hth with ⟨rfl, rfl⟩ | hold
      · rw [Config.spawn_state, ih.1 j hfresh]
        exact ⟨hprog j k, fun l hl => hown j l k hl⟩
      · exact ih.2 j th hold
  | @step cfg i fault th c next _ hth hproc _ _ _ ih =>
    obtain ⟨hjournals, hissues⟩ := ih.2 i th hth
    rw [hproc] at hjournals hissues
    -- the step makes its own entries and no others
    have hothers : ∀ j, i ≠ j → journal j
        (after (outcome fault (S.exec c cfg.state)) cfg.state) = journal j cfg.state := by
      intro j hj
      cases hres : outcome fault (S.exec c cfg.state) with
      | error e => rfl
      | ok r =>
        rw [after, hout j c _ r.1 r.2 (outcome_eq_ok hres).2, (hissues j hj).1 r.1, List.append_nil]
    have hself : (next (reply (outcome fault (S.exec c cfg.state)))).Journals G (O i)
        (P i th.call) (Q i th.call)
        (journal i (after (outcome fault (S.exec c cfg.state)) cfg.state)) := by
      cases hres : outcome fault (S.exec c cfg.state) with
      | error e => exact hjournals.2.2 e
      | ok r =>
        rw [after, hout i c _ r.1 r.2 (outcome_eq_ok hres).2]
        exact hjournals.2.1 r.1 (hreplied c _ r.1 r.2 (outcome_eq_ok hres).2)
    refine ⟨fun j hj => ?_, fun j th' hth' => ?_⟩
    · have hji : i ≠ j := by
        rintro rfl
        rw [Config.thread_resume, if_pos (Config.id_of_thread hth)] at hj
        cases hj
      rw [Config.thread_resume_ne hth hji.symm] at hj
      rw [Config.resume_state, hothers j hji, ih.1 j hj]
    · by_cases hji : j = i
      · subst hji
        rw [Config.thread_resume, if_pos (Config.id_of_thread hth)] at hth'
        cases hth'
        exact ⟨hself, fun l hl => (hissues l hl).2 _⟩
      · rw [Config.thread_resume_ne hth hji] at hth'
        rw [Config.resume_state, hothers j (Ne.symm hji)]
        exact ih.2 j th' hth'

end Runs

/-! ## Adding up -/

/-- The entries added up author by author. -/
theorem sum_by_author {M : Type} [AddCommMonoid M] (author : E → ℕ) (f : E → M) {ids : List ℕ}
    (hnd : ids.Nodup) {l : List E} (hl : ∀ e ∈ l, author e ∈ ids) :
    (l.map f).sum =
      (ids.map fun i => ((l.filter fun e => decide (author e = i)).map f).sum).sum := by
  induction l with
  | nil => simp
  | cons e l ih =>
    rw [List.map_cons, List.sum_cons, ih fun e' he' => hl e' (List.mem_cons_of_mem _ he')]
    have hmem := hl e (List.mem_cons_self ..)
    clear ih hl
    -- the new entry counts for its author only
    induction ids with
    | nil => cases hmem
    | cons i ids ih =>
      obtain ⟨hi, hnd'⟩ := List.nodup_cons.mp hnd
      simp only [List.map_cons, List.sum_cons]
      by_cases he : author e = i
      · rw [List.filter_cons_of_pos (by simpa using he), List.map_cons, List.sum_cons, add_assoc]
        congr 2
        refine congrArg List.sum (List.map_congr_left fun j hj => ?_)
        rw [List.filter_cons_of_neg]
        simp only [decide_eq_true_eq]
        rintro rfl
        rw [he] at hj
        exact hi hj
      · rw [List.filter_cons_of_neg (by simpa using he),
          ← ih hnd' ((List.mem_cons.mp hmem).resolve_left he)]
        exact add_left_comm ..

/-- A sum over a list of which only some elements count, each for one at most. -/
theorem sum_le_countP {A : Type} {f : A → ℤ} {p : A → Bool} {l : List A}
    (h : ∀ a ∈ l, f a ≤ if p a then 1 else 0) : (l.map f).sum ≤ l.countP p := by
  induction l with
  | nil => simp
  | cons a l ih =>
    have hhead := h a (List.mem_cons_self ..)
    have htail := ih fun b hb => h b (List.mem_cons_of_mem a hb)
    rw [List.map_cons, List.sum_cons, List.countP_cons]
    push_cast
    omega

end Async
