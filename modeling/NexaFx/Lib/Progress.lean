import Mathlib.Data.Multiset.MapFold
import Mathlib.Logic.Hydra
import NexaFx.Lib.Pool

/-!
# Calls that end

What no interleaving can avoid. `Goes` is a step of a call that has been made,
taken by any schedule and with any failure that the discipline allows; nobody
makes a new call. `Inevitably Q` says that the calls come to `Q` however they go
on, and are not stuck before.

* `goes_wellFounded` — the calls do not go on for ever;
* `Inevitably.of_goes` — so what they come to is where they cannot go on;
* `HoldsBriefly` — a call that holds a lock waits for nothing until it has
  released it;
* `HoldsBriefly.inevitably` — then all calls end and no lock is left.
-/

namespace Async

variable {K C : Type} {R : C → Type} {ε σ α : Type} {S : System K C R ε σ α}
  {D : Discipline K C R ε σ α} {cfg₀ cfg cfg' : Config K C R ε σ α}

-- ---------------------------------------------------------------------------
-- Steps of the calls that have been made
-- ---------------------------------------------------------------------------

inductive Goes (S : System K C R ε σ α) (D : Discipline K C R ε σ α)
    (cfg : Config K C R ε σ α) : Config K C R ε σ α → Prop
  | step {i : ℕ} {fault : Option ε} {th : Thread K C R ε α} {c : C}
      {next : Except ε (R c) → Proc C R ε α} (hth : cfg.thread i = some th)
      (hproc : th.proc = .await c next) (hready : S.ready c cfg.state = true)
      (hfault : fault = none ∨ S.mayFail c = true)
      (hD : D.onStep cfg th c (failed (outcome fault (S.exec c cfg.state)))) :
      Goes S D cfg (cfg.resume th next (outcome fault (S.exec c cfg.state)))

theorem Reach.goes (h : Reach S D cfg₀ cfg) (hgoes : Goes S D cfg cfg') : Reach S D cfg₀ cfg' := by
  cases hgoes with
  | step hth hproc hready hfault hD => exact .step _ _ _ _ _ h hth hproc hready hfault hD

/-- What is left of a call after a reply. -/
def Proc.Remains (p' p : Proc C R ε α) : Prop :=
  ∃ c next r, p = .await c next ∧ p' = next r

theorem Proc.remains_wellFounded : WellFounded (@Proc.Remains C R ε α) := by
  refine ⟨fun p => ?_⟩
  induction p with
  | done r =>
    refine ⟨_, fun p' h => ?_⟩
    obtain ⟨c, next, x, hdone, -⟩ := h
    cases hdone
  | await c next ih =>
    refine ⟨_, fun p' h => ?_⟩
    obtain ⟨c', next', x, hawait, rfl⟩ := h
    cases hawait
    exact ih x

/-- What is left of all calls. -/
def Config.rest (cfg : Config K C R ε σ α) : Multiset (Proc C R ε α) :=
  ↑(cfg.threads.map Thread.proc)

/-- The upsert takes one row's place. -/
theorem put_perm {ρ κ : Type} [DecidableEq κ] (key : ρ → κ) {r x : ρ} {t : List ρ}
    (h : Table.get key t (key r) = some x) : (x :: Table.put key r t).Perm (r :: t) := by
  induction t with
  | nil => simp at h
  | cons y t ih =>
    rw [Table.get_cons] at h
    rw [Table.put]
    by_cases hy : key y = key r
    · rw [if_pos hy] at h ⊢
      obtain rfl : y = x := Option.some.inj h
      exact .swap ..
    · rw [if_neg hy] at h ⊢
      calc (x :: y :: Table.put key r t).Perm (y :: x :: Table.put key r t) := .swap ..
        _ |>.Perm (y :: r :: t) := (ih h).cons y
        _ |>.Perm (r :: y :: t) := .swap ..

theorem rest_resume {i : ℕ} {th : Thread K C R ε α} {c : C} {next : Except ε (R c) → Proc C R ε α}
    (hth : cfg.thread i = some th) (r : Except ε (R c × σ)) :
    (cfg.resume th next r).rest + {th.proc} = cfg.rest + {next (reply r)} := by
  have hid := Config.id_of_thread hth
  have hget : Table.get Thread.id cfg.threads
      ({ th with begun := true, proc := next (reply r) } : Thread K C R ε α).id = some th := by
    rw [show ({ th with begun := true, proc := next (reply r) } : Thread K C R ε α).id = i from hid]
    exact hth
  have hperm := (put_perm Thread.id hget).map Thread.proc
  rw [add_comm, add_comm cfg.rest, Multiset.singleton_add, Multiset.singleton_add]
  exact Multiset.coe_eq_coe.mpr hperm

/-- **The calls do not go on for ever.** -/
theorem goes_wellFounded : WellFounded fun cfg' cfg : Config K C R ε σ α => Goes S D cfg cfg' := by
  have hcut := (@Proc.remains_wellFounded C R ε α).cutExpand
  refine Subrelation.wf (fun {cfg' cfg} hgoes => ?_) (InvImage.wf Config.rest hcut)
  cases hgoes with
  | step hth hproc hready hfault hD =>
    refine ⟨{_}, _, fun p hp => ?_, rest_resume hth _⟩
    obtain rfl := Multiset.mem_singleton.mp hp
    exact ⟨_, _, _, hproc, rfl⟩

-- ---------------------------------------------------------------------------
-- What is inevitable
-- ---------------------------------------------------------------------------

/-- However the calls go on, they come to `Q`. -/
inductive Inevitably (S : System K C R ε σ α) (D : Discipline K C R ε σ α)
    (Q : Config K C R ε σ α → Prop) : Config K C R ε σ α → Prop
  | here {cfg : Config K C R ε σ α} (h : Q cfg) : Inevitably S D Q cfg
  | later {cfg : Config K C R ε σ α} (hgoes : ∃ cfg', Goes S D cfg cfg')
      (h : ∀ cfg', Goes S D cfg cfg' → Inevitably S D Q cfg') : Inevitably S D Q cfg

theorem Inevitably.mono {Q Q' : Config K C R ε σ α → Prop} (hQ : ∀ cfg, Q cfg → Q' cfg)
    (h : Inevitably S D Q cfg) : Inevitably S D Q' cfg := by
  induction h with
  | here h => exact .here (hQ _ h)
  | later hgoes _ ih => exact .later hgoes ih

/-- Where the calls are in `Q` or can go on. -/
theorem Inevitably.of_goes {I Q : Config K C R ε σ α → Prop}
    (hkeep : ∀ cfg cfg', I cfg → Goes S D cfg cfg' → I cfg')
    (hgoes : ∀ cfg, I cfg → Q cfg ∨ ∃ cfg', Goes S D cfg cfg') (hI : I cfg) :
    Inevitably S D Q cfg := by
  have hwf := goes_wellFounded (S := S) (D := D)
  induction cfg using hwf.induction with
  | _ cfg ih =>
    rcases hgoes cfg hI with hQ | hmore
    · exact .here hQ
    · exact .later hmore fun cfg' hstep => ih cfg' hstep (hkeep cfg cfg' hI hstep)

-- ---------------------------------------------------------------------------
-- Locks
-- ---------------------------------------------------------------------------

/-- What is left of a call that holds a lock: it waits for nothing, until a reply
after which it holds none (`last`). -/
inductive Holding (S : System K C R ε σ α) (last : (c : C) → Except ε (R c) → Prop) :
    Proc C R ε α → Prop
  | await {c : C} {next : Except ε (R c) → Proc C R ε α} (ready : ∀ s, S.ready c s = true)
      (rest : ∀ r, ¬ last c r → Holding S last (next r)) : Holding S last (.await c next)

/-- Locks are held briefly. -/
structure HoldsBriefly (S : System K C R ε σ α) (D : Discipline K C R ε σ α)
    (holds : ℕ → σ → Prop) (last : (c : C) → Except ε (R c) → Prop)
    (issues : ℕ → C → Prop) : Prop where
  /-- Whoever waits, waits for a lock. -/
  waits : ∀ c s, S.ready c s = false → ∃ j, holds j s
  /-- Nobody is given a lock by somebody else. -/
  others : ∀ i j c s a s', issues i c → S.exec c s = .ok (a, s') → j ≠ i → holds j s' → holds j s
  releases : ∀ cfg i th c fault, cfg.thread i = some th → issues i c →
    D.onStep cfg th c (failed (outcome fault (S.exec c cfg.state))) →
    last c (reply (outcome fault (S.exec c cfg.state))) →
    ¬ holds i (after (outcome fault (S.exec c cfg.state)) cfg.state)
  /-- The commands of a call, and where it gets a lock. -/
  gets : ∀ i k, (S.prog i k).Always (fun _ _ => True) fun c next => issues i c ∧
    ∀ s a s', S.exec c s = .ok (a, s') → holds i s' → holds i s ∨ Holding S last (next (.ok a))
  /-- A command that the environment does not reject may be carried out. -/
  allows : ∀ cfg th c, D.onStep cfg th c (failed (S.exec c cfg.state))

namespace HoldsBriefly

variable {holds : ℕ → σ → Prop} {last : (c : C) → Except ε (R c) → Prop} {issues : ℕ → C → Prop}

/-- Who holds a lock is on the way to release it. -/
theorem holding (hS : HoldsBriefly S D holds last issues) (hnil : cfg₀.threads = [])
    (hfree : ∀ j, ¬ holds j cfg₀.state) (h : Reach S D cfg₀ cfg) :
    ∀ j, holds j cfg.state → ∃ th, cfg.thread j = some th ∧ Holding S last th.proc := by
  refine (Reach.invariant_always (I := fun cfg : Config K C R ε σ α => ∀ j, holds j cfg.state →
    ∃ th, cfg.thread j = some th ∧ Holding S last th.proc)
    (fun j hj => absurd hj (hfree j)) hnil hS.gets ?_ ?_ h).1
  · intro cfg i k hI hfresh _ j hj
    obtain ⟨th, hth, hholding⟩ := hI j hj
    refine ⟨th, ?_, hholding⟩
    rw [Config.thread_spawn, if_neg]
    · exact hth
    · rintro rfl
      rw [hfresh] at hth
      cases hth
  · intro cfg i fault th c next hI hth hproc hQ hD
    refine ⟨fun j hj => ?_, fun _ _ _ => trivial⟩
    rw [Config.resume_state] at hj
    by_cases hji : j = i
    · subst hji
      refine ⟨_, by rw [Config.thread_resume, if_pos (Config.id_of_thread hth)], ?_⟩
      show Holding S last (next (reply (outcome fault (S.exec c cfg.state))))
      -- it has held the lock before, or it has got it with this command
      have hbefore : holds j cfg.state →
          Holding S last (next (reply (outcome fault (S.exec c cfg.state)))) := by
        intro hheld
        obtain ⟨th', hth', hholding⟩ := hI j hheld
        obtain rfl : th = th' := Option.some.inj (hth.symm.trans hth')
        rw [hproc] at hholding
        cases hholding with
        | await _ hrest =>
          exact hrest _ fun hlast => hS.releases cfg j th c fault hth hQ.1 hD hlast hj
      cases hout : outcome fault (S.exec c cfg.state) with
      | error e =>
        rw [hout] at hj hbefore
        exact hbefore hj
      | ok r =>
        obtain ⟨a, s'⟩ := r
        rw [hout] at hj hbefore
        rcases hQ.2 cfg.state a s' (outcome_eq_ok hout).2 hj with hheld | hgot
        · exact hbefore hheld
        · exact hgot
    · have hheld : holds j cfg.state := by
        cases hout : outcome fault (S.exec c cfg.state) with
        | error e =>
          rw [hout] at hj
          exact hj
        | ok r =>
          obtain ⟨a, s'⟩ := r
          rw [hout] at hj
          exact hS.others i j c cfg.state a s' hQ.1 (outcome_eq_ok hout).2 hji hj
      obtain ⟨th', hth', hholding⟩ := hI j hheld
      exact ⟨th', by rw [Config.thread_resume_ne hth hji, hth'], hholding⟩

/-- All calls have ended, and nobody holds a lock. -/
def Idle (holds : ℕ → σ → Prop) (cfg : Config K C R ε σ α) : Prop :=
  (∀ i th, cfg.thread i = some th → th.proc.isDone = true) ∧ ∀ j, ¬ holds j cfg.state

/-- Some call can go on, unless all have ended. -/
theorem goes (hS : HoldsBriefly S D holds last issues) (hnil : cfg₀.threads = [])
    (hfree : ∀ j, ¬ holds j cfg₀.state) (h : Reach S D cfg₀ cfg) :
    Idle holds cfg ∨ ∃ cfg', Goes S D cfg cfg' := by
  have hstep : ∀ i th c next, cfg.thread i = some th → th.proc = .await c next →
      S.ready c cfg.state = true → ∃ cfg', Goes S D cfg cfg' := fun i th c next hth hproc hready =>
    ⟨_, .step hth hproc hready (Or.inl rfl) (hS.allows cfg th c)⟩
  have hholder : ∀ j, holds j cfg.state → ∃ cfg', Goes S D cfg cfg' := by
    intro j hj
    obtain ⟨th, hth, hholding⟩ := hS.holding hnil hfree h j hj
    cases hproc : th.proc with
    | done r =>
      rw [hproc] at hholding
      cases hholding
    | await c next =>
      rw [hproc] at hholding
      cases hholding with
      | await hready _ => exact hstep j th c next hth hproc (hready cfg.state)
  by_cases hall : ∀ i th, cfg.thread i = some th → th.proc.isDone = true
  · by_cases hnone : ∀ j, ¬ holds j cfg.state
    · exact Or.inl ⟨hall, hnone⟩
    · obtain ⟨j, hj⟩ := not_forall_not.mp hnone
      exact Or.inr (hholder j hj)
  · simp only [not_forall] at hall
    obtain ⟨i, th, hth, hopen⟩ := hall
    cases hproc : th.proc with
    | done r =>
      rw [hproc] at hopen
      exact absurd rfl hopen
    | await c next =>
      cases hready : S.ready c cfg.state with
      | true => exact Or.inr (hstep i th c next hth hproc hready)
      | false =>
        obtain ⟨j, hj⟩ := hS.waits c cfg.state hready
        exact Or.inr (hholder j hj)

/-- **All calls end.** -/
theorem inevitably (hS : HoldsBriefly S D holds last issues) (hnil : cfg₀.threads = [])
    (hfree : ∀ j, ¬ holds j cfg₀.state) (h : Reach S D cfg₀ cfg) :
    Inevitably S D (Idle holds) cfg :=
  .of_goes (I := Reach S D cfg₀) (fun _ _ => Reach.goes) (fun _ => hS.goes hnil hfree) h

end HoldsBriefly

end Async
