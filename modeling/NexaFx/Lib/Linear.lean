import NexaFx.Lib.Pool

/-!
# Linearizability

The calls of a server take many steps, among the steps of the others. A
specification says what each call does when it is a single step. The server is
linearizable when the calls that have returned can be put in an order in which
the specification gives each of them the answer it has returned, starting from
what was there and ending with what is there; calls that are under way or have
thrown count for nothing, and the order is only extended as time goes on.

* `Point` — a step as the specification sees it: it is nothing, or it is all
  that the call does and the call returns with it;
* `Linearizes` — where a call may be, step by step, and what the steps of the
  others leave alone;
* `Linearizes.reach` — then the server is linearizable.
-/

namespace Async

variable {K C A β : Type} {R : C → Type} {ε ε' σ α : Type}

/-- A call that has returned, and its answer. -/
structure Operation (K β : Type) where
  call : ℕ
  request : K
  answer : β

/-- The operations, each as a single step. -/
def Carried (spec : ℕ → K → A → Except ε' (β × A)) : A → List (Operation K β) → A → Prop
  | a, [], a' => a' = a
  | a, op :: ops, a' =>
    ∃ a₁, spec op.call op.request a = .ok (op.answer, a₁) ∧ Carried spec a₁ ops a'

theorem carried_concat {spec : ℕ → K → A → Except ε' (β × A)} {a a' a'' : A}
    {ops : List (Operation K β)} {op : Operation K β} (h : Carried spec a ops a')
    (hop : spec op.call op.request a' = .ok (op.answer, a'')) :
    Carried spec a (ops ++ [op]) a'' := by
  induction ops generalizing a with
  | nil =>
    obtain rfl : a' = a := h
    exact ⟨a'', hop, rfl⟩
  | cons op' ops ih =>
    obtain ⟨a₁, hfirst, hrest⟩ := h
    exact ⟨a₁, hfirst, ih hrest⟩

/-- What a server is compared with: the specification of its calls, the states
that stand for one of the specification's, and what an answer is there. -/
structure Atomic (K A β ε' σ α : Type) where
  spec : ℕ → K → A → Except ε' (β × A)
  shows : σ → A → Prop
  answer : α → β

variable {S : System K C R ε σ α} {D : Discipline K C R ε σ α} {T : Atomic K A β ε' σ α}
  {cfg₀ cfg cfg' : Config K C R ε σ α} {a₀ : A} {ops : List (Operation K β)}

/-- The operations are the calls that have returned, with their answers, and
account for the state. -/
structure Linearized (T : Atomic K A β ε' σ α) (a₀ : A) (ops : List (Operation K β))
    (cfg : Config K C R ε σ α) : Prop where
  state : ∃ a, Carried T.spec a₀ ops a ∧ T.shows cfg.state a
  once : (ops.map Operation.call).Nodup
  returned : ∀ op ∈ ops, ∃ th r, cfg.thread op.call = some th ∧ th.call = op.request ∧
    th.proc = .done (.ok r) ∧ T.answer r = op.answer
  all : ∀ i th r, cfg.thread i = some th → th.proc = .done (.ok r) → i ∈ ops.map Operation.call

/-- A step that leads to `p'`: nothing to the specification, or the whole call. -/
def Point (T : Atomic K A β ε' σ α) (i : ℕ) (k : K) (s s' : σ) (p' : Proc C R ε α) : Prop :=
  ((∀ a, T.shows s a → T.shows s' a) ∧ ∀ r, p' ≠ .done (.ok r)) ∨
  ∃ r, p' = .done (.ok r) ∧ ∀ a, T.shows s a →
    ∃ a', T.spec i k a = .ok (T.answer r, a') ∧ T.shows s' a'

/-- Where the calls may be (`place`), which the steps of the others leave (`keeps`). -/
structure Linearizes (S : System K C R ε σ α) (T : Atomic K A β ε' σ α)
    (place : ℕ → K → Proc C R ε α → σ → Prop) (keeps : ℕ → σ → σ → Prop) : Prop where
  begins : ∀ i k s, place i k (S.prog i k) s ∧ ∀ r, S.prog i k ≠ .done (.ok r)
  later : ∀ i k p s s', place i k p s → keeps i s s' → place i k p s'
  step : ∀ i k c next s fault, place i k (.await c next) s → S.ready c s = true →
    place i k (next (reply (outcome fault (S.exec c s)))) (after (outcome fault (S.exec c s)) s) ∧
    Point T i k s (after (outcome fault (S.exec c s)) s)
      (next (reply (outcome fault (S.exec c s)))) ∧
    ∀ j, j ≠ i → keeps j s (after (outcome fault (S.exec c s)) s)

section Steps

variable {place : ℕ → K → Proc C R ε α → σ → Prop} {keeps : ℕ → σ → σ → Prop}

/-- A new call is not an operation yet. -/
theorem Linearized.spawn (h : Linearized T a₀ ops cfg) {i : ℕ} (hfresh : cfg.thread i = none)
    {k : K} {p : Proc C R ε α} (hp : ∀ r, p ≠ .done (.ok r)) :
    Linearized T a₀ ops (cfg.spawn i k p) := by
  refine ⟨h.state, h.once, fun op hop => ?_, fun j th r hth hproc => ?_⟩
  · obtain ⟨th, r, hth, hreturned⟩ := h.returned op hop
    refine ⟨th, r, ?_, hreturned⟩
    rw [Config.thread_spawn, if_neg]
    · exact hth
    · rintro rfl
      rw [hfresh] at hth
      cases hth
  · rcases Config.thread_spawn_cases hth with ⟨rfl, rfl⟩ | hold
    · exact absurd hproc (hp r)
    · exact h.all j th r hold hproc

/-- **A step** extends the order by the operation it is, if it is one. -/
theorem Linearized.resume (h : Linearized T a₀ ops cfg) {i : ℕ} {th : Thread K C R ε α} {c : C}
    {next : Except ε (R c) → Proc C R ε α} (hth : cfg.thread i = some th)
    (hproc : th.proc = .await c next) {r : Except ε (R c × σ)}
    (hpoint : Point T i th.call cfg.state (after r cfg.state) (next (reply r))) :
    ∃ later, Linearized T a₀ (ops ++ later) (cfg.resume th next r) := by
  obtain ⟨a, hcarried, hshows⟩ := h.state
  have hfresh : i ∉ ops.map Operation.call := by
    intro hmem
    obtain ⟨op, hop, rfl⟩ := List.mem_map.mp hmem
    obtain ⟨th', r', hth', -, hdone, -⟩ := h.returned op hop
    rw [hth] at hth'
    cases hth'
    rw [hproc] at hdone
    cases hdone
  have hothers : ∀ op ∈ ops, ∃ th' r', (cfg.resume th next r).thread op.call = some th' ∧
      th'.call = op.request ∧ th'.proc = .done (.ok r') ∧ T.answer r' = op.answer := by
    intro op hop
    obtain ⟨th', r', hth', hreturned⟩ := h.returned op hop
    refine ⟨th', r', ?_, hreturned⟩
    rw [Config.thread_resume_ne hth]
    · exact hth'
    · rintro rfl
      exact hfresh (List.mem_map_of_mem hop)
  rcases hpoint with ⟨hsilent, hopen⟩ | ⟨b, hdone, hwhole⟩
  · refine ⟨[], ?_⟩
    rw [List.append_nil]
    refine ⟨⟨a, hcarried, hsilent a hshows⟩, h.once, hothers, fun j th' r' hth' hproc' => ?_⟩
    rcases Config.thread_resume_cases hth hth' with ⟨rfl, rfl⟩ | hold
    · exact absurd hproc' (hopen r')
    · exact h.all j th' r' hold hproc'
  · obtain ⟨a', hspec, hshows'⟩ := hwhole a hshows
    refine ⟨[⟨i, th.call, T.answer b⟩], ⟨a', carried_concat hcarried hspec, hshows'⟩, ?_, ?_, ?_⟩
    · rw [List.map_append]
      refine List.nodup_append.mpr ⟨h.once, List.nodup_singleton i, fun x hx y hy => ?_⟩
      obtain rfl := List.mem_singleton.mp hy
      rintro rfl
      exact hfresh hx
    · intro op hop
      rcases List.mem_append.mp hop with hold | hnew
      · exact hothers op hold
      · obtain rfl := List.mem_singleton.mp hnew
        refine ⟨{ th with begun := true, proc := next (reply r) }, b, ?_, rfl, hdone, rfl⟩
        rw [Config.thread_resume, if_pos (Config.id_of_thread hth)]
    · intro j th' r' hth' hproc'
      rw [List.map_append, List.mem_append]
      rcases Config.thread_resume_cases hth hth' with ⟨rfl, -⟩ | hold
      · exact Or.inr (List.mem_singleton_self _)
      · exact Or.inl (h.all j th' r' hold hproc')

/-- Every call is where it may be, and the order goes on. -/
theorem Linearizes.extends (hS : Linearizes S T place keeps)
    (hplace : ∀ i th, cfg.thread i = some th → place i th.call th.proc cfg.state)
    (hops : Linearized T a₀ ops cfg) (h : Reach S D cfg cfg') :
    (∀ i th, cfg'.thread i = some th → place i th.call th.proc cfg'.state) ∧
    ∃ later, Linearized T a₀ (ops ++ later) cfg' := by
  refine Reach.invariant (I := fun cfg' : Config K C R ε σ α =>
    (∀ i th, cfg'.thread i = some th → place i th.call th.proc cfg'.state) ∧
    ∃ later, Linearized T a₀ (ops ++ later) cfg') ?_ ?_ ?_ h
  · refine ⟨hplace, [], ?_⟩
    rw [List.append_nil]
    exact hops
  · intro cfg' i k hI hfresh _
    obtain ⟨hplace, later, hlater⟩ := hI
    obtain ⟨hbegins, hopen⟩ := hS.begins i k cfg'.state
    refine ⟨fun j th hth => ?_, later, hlater.spawn hfresh hopen⟩
    rcases Config.thread_spawn_cases hth with ⟨rfl, rfl⟩ | hold
    · exact hbegins
    · exact hplace j th hold
  · intro cfg' i fault th c next hI hth hproc hready _ _
    obtain ⟨hplace, later, hlater⟩ := hI
    have hhere := hplace i th hth
    rw [hproc] at hhere
    obtain ⟨hnext, hpoint, hkeeps⟩ := hS.step i th.call c next cfg'.state fault hhere hready
    obtain ⟨more, hmore⟩ := hlater.resume hth hproc hpoint
    refine ⟨fun j th' hth' => ?_, later ++ more, by rwa [← List.append_assoc]⟩
    rw [Config.resume_state]
    by_cases hj : j = i
    · subst hj
      rw [Config.thread_resume, if_pos (Config.id_of_thread hth)] at hth'
      cases hth'
      exact hnext
    · rw [Config.thread_resume_ne hth hj] at hth'
      exact hS.later j th'.call th'.proc _ _ (hplace j th' hth') (hkeeps j hj)

/-- **Linearizability.** -/
theorem Linearizes.reach (hS : Linearizes S T place keeps) (hnil : cfg₀.threads = [])
    (hshows : T.shows cfg₀.state a₀) (h : Reach S D cfg₀ cfg) (h' : Reach S D cfg cfg') :
    ∃ ops later, Linearized T a₀ ops cfg ∧ Linearized T a₀ (ops ++ later) cfg' := by
  have hnone : ∀ i, cfg₀.thread i = none := by
    intro i
    rw [Config.thread, hnil]
    rfl
  have hstart : Linearized T a₀ [] cfg₀ := by
    refine ⟨⟨a₀, rfl, hshows⟩, List.nodup_nil, fun op hop => ?_, fun i th r hth => ?_⟩
    · cases hop
    · rw [hnone i] at hth
      cases hth
  have hplace : ∀ i th, cfg₀.thread i = some th → place i th.call th.proc cfg₀.state := by
    intro i th hth
    rw [hnone i] at hth
    cases hth
  obtain ⟨hplace, ops, hops⟩ := hS.extends hplace hstart h
  obtain ⟨-, later, hlater⟩ := hS.extends hplace hops h'
  exact ⟨ops, later, hops, hlater⟩

end Steps

end Async
