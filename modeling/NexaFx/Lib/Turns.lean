import NexaFx.Lib.Exclusive

/-!
# Turns

Calls look a thing up and then work on it, each in one or more turns: a turn
begins with a lookup and is over when the call has ended or comes to its next
lookup. Between its turns a call leaves the thing alone.

* `Proc.Turns` — what is left of a turn, alone with the thing, ends at rest;
* `Proc.Aside` — the call changes nothing of the thing before its next lookup;
* `Reach.turns` — when a call looks the thing up only while every other call is
  aside, the thing is safe throughout, and at rest whenever all calls are aside.

Unlike a critical section (`Exclusive`, `Guarded`), a turn need not be all of
what a call does.
-/

namespace Async

variable {K C : Type} {R : C → Type} {ε σ α β V : Type}

/-- What calls take turns with. -/
structure Turn (C : Type) (R : C → Type) (ε σ V : Type) where
  exec : Exec C R ε σ
  /-- The thing, as far as it counts. -/
  view : σ → V
  /-- The lookups. -/
  opens : C → Bool
  /-- The commands that may change the view. -/
  touches : C → Bool
  /-- The command may turn out so, failed or not, in this state. -/
  allows : C → Bool → σ → Prop
  /-- What holds of every state. -/
  inv : σ → Prop
  safe : V → Prop
  rest : V → Prop

/-- Before its next lookup, the call comes to no command that touches the thing. -/
def Proc.Aside (touches opens : C → Bool) (replies : (c : C) → R c → Prop) : Proc C R ε α → Prop
  | .done _ => True
  | .await c next => touches c = false ∧ (opens c = false →
      (∀ a, replies c a → (next (.ok a)).Aside touches opens replies) ∧
      ∀ e, (next (.error e)).Aside touches opens replies)

/-- Alone with the thing, the call ends its turn at rest. -/
def Proc.Turns (T : Turn C R ε σ V) : Proc C R ε α → V → Prop
  | .done _, v => T.rest v
  | .await c next, v => (T.opens c = true → T.rest v) ∧ (T.opens c = false → T.safe v ∧
      ∀ s, T.inv s → T.view s = v →
        (∀ a s', T.allows c false s → T.exec c s = .ok (a, s') →
          (next (.ok a)).Turns T (T.view s')) ∧
        ∀ e, T.allows c true s → (next (.error e)).Turns T v)

/-- What a lookup at rest begins. -/
def Turn.Begins (T : Turn C R ε σ V) (c : C) (next : Except ε (R c) → Proc C R ε α) : Prop :=
  T.opens c = true → ∀ s, T.inv s → T.rest (T.view s) →
    (∀ a s', T.exec c s = .ok (a, s') → (next (.ok a)).Turns T (T.view s)) ∧
    ∀ e, (next (.error e)).Turns T (T.view s)

namespace Proc

section Aside

variable {touches opens : C → Bool} {replies : (c : C) → R c → Prop}

theorem aside_open_bind {c : C} {k : R c → Proc C R ε β} (htouches : touches c = false)
    (hopens : opens c = true) : ((call c).bind k).Aside touches opens replies :=
  ⟨htouches, fun h => absurd h (by simp [hopens])⟩

theorem aside_call_bind {c : C} {k : R c → Proc C R ε β} (htouches : touches c = false)
    (hk : ∀ a, replies c a → (k a).Aside touches opens replies) :
    ((call c).bind k).Aside touches opens replies :=
  ⟨htouches, fun _ => ⟨hk, fun _ => trivial⟩⟩

theorem aside_rejectWhen_bind {c : Prop} [Decidable c] {e : ε} {k : Unit → Proc C R ε β}
    (hk : ¬ c → (k ()).Aside touches opens replies) :
    ((rejectWhen c e).bind k).Aside touches opens replies := by
  unfold rejectWhen
  split
  · trivial
  · rename_i hc
    exact hk hc

theorem aside_bind {p : Proc C R ε β} {k : β → Proc C R ε α} (hp : p.Aside touches opens replies)
    (hk : ∀ b, (k b).Aside touches opens replies) : (p.bind k).Aside touches opens replies := by
  induction p with
  | done r =>
    cases r with
    | ok b => exact hk b
    | error e => trivial
  | await c next ih =>
    refine ⟨hp.1, fun hopens => ⟨fun a ha => ?_, fun e => ?_⟩⟩
    · exact ih _ ((hp.2 hopens).1 a ha)
    · exact ih _ ((hp.2 hopens).2 e)

theorem aside_attempt {p : Proc C R ε β} (hp : p.Aside touches opens replies) :
    p.attempt.Aside touches opens replies := by
  induction p with
  | done r => trivial
  | await c next ih =>
    refine ⟨hp.1, fun hopens => ⟨fun a ha => ?_, fun e => ?_⟩⟩
    · exact ih _ ((hp.2 hopens).1 a ha)
    · exact ih _ ((hp.2 hopens).2 e)

theorem aside_of_issues {p : Proc C R ε α} (h : p.Issues fun c => touches c = false) :
    p.Aside touches opens replies := by
  induction p with
  | done r => trivial
  | await c next ih => exact ⟨h.1, fun _ => ⟨fun _ _ => ih _ (h.2 _), fun _ => ih _ (h.2 _)⟩⟩

/-- A call that has ended or is at a lookup. -/
theorem aside_of_waitsOn {p : Proc C R ε α} (h : p.waitsOn.all opens = true)
    (hopens : ∀ c, opens c = true → touches c = false) : p.Aside touches opens replies := by
  cases p with
  | done r => trivial
  | await c next =>
    have hc : opens c = true := h
    exact ⟨hopens c hc, fun hother => absurd hc (by simp [hother])⟩

end Aside

section Rules

variable {T : Turn C R ε σ V} {v : V}

/-- A command of the turn. -/
theorem turns_call_bind {c : C} {k : R c → Proc C R ε β} (hopens : T.opens c = false)
    (hsafe : T.safe v)
    (hok : ∀ s a s', T.inv s → T.view s = v → T.allows c false s → T.exec c s = .ok (a, s') →
      (k a).Turns T (T.view s'))
    (herror : ∀ s, T.inv s → T.view s = v → T.allows c true s → T.rest v) :
    ((Proc.call c).bind k).Turns T v := by
  refine ⟨fun h => absurd h (by simp [hopens]), fun _ => ⟨hsafe, fun s hinv hv => ⟨?_, ?_⟩⟩⟩
  · intro a s' hallows hexec
    exact hok s a s' hinv hv hallows hexec
  · intro e hallows
    exact herror s hinv hv hallows

/-- A command of the turn inside a `try`. -/
theorem turns_try_call_bind {c : C} {k : R c → Proc C R ε β} {handle : Except ε β → Proc C R ε α}
    (hopens : T.opens c = false) (hsafe : T.safe v)
    (hok : ∀ s a s', T.inv s → T.view s = v → T.allows c false s → T.exec c s = .ok (a, s') →
      ((k a).attempt.bind handle).Turns T (T.view s'))
    (herror : ∀ s e, T.inv s → T.view s = v → T.allows c true s →
      (handle (.error e)).Turns T v) :
    (((Proc.call c).bind k).attempt.bind handle).Turns T v := by
  refine ⟨fun h => absurd h (by simp [hopens]), fun _ => ⟨hsafe, fun s hinv hv => ⟨?_, ?_⟩⟩⟩
  · intro a s' hallows hexec
    exact hok s a s' hinv hv hallows hexec
  · intro e hallows
    exact herror s e hinv hv hallows

theorem turns_try_rejectWhen_bind {c : Prop} [Decidable c] {e : ε} {k : Unit → Proc C R ε β}
    {handle : Except ε β → Proc C R ε α} (hreject : c → (handle (.error e)).Turns T v)
    (hpass : ¬ c → ((k ()).attempt.bind handle).Turns T v) :
    ((((rejectWhen c e).bind k).attempt).bind handle).Turns T v := by
  unfold rejectWhen
  split
  · rename_i hc
    exact hreject hc
  · rename_i hc
    exact hpass hc

/-- Handing on the result is no part of the turn. -/
theorem turns_bind_done {p : Proc C R ε β} (g : β → Except ε α) (h : p.Turns T v) :
    (p.bind fun b => .done (g b)).Turns T v := by
  induction p generalizing v with
  | done r => cases r <;> exact h
  | await c next ih =>
    refine ⟨h.1, fun hopens => ⟨(h.2 hopens).1, fun s hinv hv => ⟨?_, ?_⟩⟩⟩
    · intro a s' hallows hexec
      exact ih _ (((h.2 hopens).2 s hinv hv).1 a s' hallows hexec)
    · intro e hallows
      exact ih _ (((h.2 hopens).2 s hinv hv).2 e hallows)

theorem begins_bind_done {replies : (c : C) → R c → Prop} {p : Proc C R ε β} (g : β → Except ε α)
    (h : p.Always replies fun c next => T.Begins c next) :
    (p.bind fun b => .done (g b)).Always replies fun c next => T.Begins c next := by
  induction h with
  | done r => cases r <;> exact .done _
  | await here ok error ihok iherror =>
    refine .await (fun hopens s hinv hrest => ⟨?_, ?_⟩) ihok iherror
    · intro a s' hexec
      exact turns_bind_done g ((here hopens s hinv hrest).1 a s' hexec)
    · intro e
      exact turns_bind_done g ((here hopens s hinv hrest).2 e)

theorem turns_rejectWhen_bind {c : Prop} [Decidable c] {e : ε} {k : Unit → Proc C R ε β}
    (hreject : c → T.rest v) (hpass : ¬ c → (k ()).Turns T v) :
    ((rejectWhen c e).bind k).Turns T v := by
  unfold rejectWhen
  split
  · rename_i hc
    exact hreject hc
  · rename_i hc
    exact hpass hc

end Rules

end Proc

/-- What has to be shown of the commands of a server. -/
structure TurnCommands (S : System K C R ε σ α) (T : Turn C R ε σ V)
    (replies : (c : C) → R c → Prop) : Prop where
  exec : T.exec = S.exec
  safe : ∀ v, T.rest v → T.safe v
  lookup : ∀ c, T.opens c = true → T.touches c = false
  keeps : ∀ c s a s', S.exec c s = .ok (a, s') → T.inv s → T.inv s'
  quiet : ∀ c s a s', T.touches c = false → T.inv s → S.exec c s = .ok (a, s') →
    T.view s' = T.view s
  possible : ∀ c s, T.touches c = false → T.allows c (failed (S.exec c s)) s
  replied : ∀ c s a s', S.exec c s = .ok (a, s') → replies c a

/-- What has to be shown of its calls. -/
structure TakesTurns (S : System K C R ε σ α) (D : Discipline K C R ε σ α) (T : Turn C R ε σ V)
    (replies : (c : C) → R c → Prop) : Prop extends TurnCommands S T replies where
  prog : ∀ i k, (S.prog i k).Always replies fun c next => T.Begins c next
  fresh : ∀ i k, (S.prog i k).Aside T.touches T.opens replies
  allows : ∀ cfg th c fault, (fault = none ∨ S.mayFail c = true) →
    D.onStep cfg th c (failed (outcome fault (S.exec c cfg.state))) →
    T.allows c (failed (outcome fault (S.exec c cfg.state))) cfg.state
  /-- A call looks the thing up only while the others are aside. -/
  alone : ∀ cfg th c f, D.onStep cfg th c f → T.opens c = true →
    ∀ j thj, cfg.thread j = some thj → j ≠ th.id → thj.proc.Aside T.touches T.opens replies

section TakesTurns

variable {S : System K C R ε σ α} {D : Discipline K C R ε σ α} {T : Turn C R ε σ V}
  {replies : (c : C) → R c → Prop} {cfg₀ cfg : Config K C R ε σ α}

/-- The turn of a call that is aside is over. -/
theorem TurnCommands.rest_of_aside (X : TurnCommands S T replies) {p : Proc C R ε β} {s : σ}
    (hinv : T.inv s) (haside : p.Aside T.touches T.opens replies) (hturn : p.Turns T (T.view s)) :
    T.rest (T.view s) := by
  induction p generalizing s with
  | done r => exact hturn
  | await c next ih =>
    cases hopens : T.opens c with
    | true => exact hturn.1 hopens
    | false =>
      obtain ⟨-, hafter⟩ := hturn.2 hopens
      obtain ⟨hok, herror⟩ := hafter s hinv rfl
      have hpossible := X.possible c s haside.1
      cases hexec : S.exec c s with
      | error e =>
        rw [hexec] at hpossible
        exact ih (.error e) hinv ((haside.2 hopens).2 e) (herror e hpossible)
      | ok r =>
        obtain ⟨a, s'⟩ := r
        rw [hexec] at hpossible
        have hsame := X.quiet c s a s' haside.1 hinv hexec
        rw [← hsame]
        refine ih (.ok a) (X.keeps c s a s' hexec hinv)
          ((haside.2 hopens).1 a (X.replied c s a s' hexec)) ?_
        exact hok a s' hpossible (by rw [X.exec, hexec])

/-- A call that is aside has no part in the thing. -/
theorem TurnCommands.turns_of_aside (X : TurnCommands S T replies) {p : Proc C R ε β} {v : V}
    (haside : p.Aside T.touches T.opens replies) (hrest : T.rest v) : p.Turns T v := by
  induction p with
  | done r => exact hrest
  | await c next ih =>
    refine ⟨fun _ => hrest, fun hopens => ⟨X.safe v hrest, fun s hinv hv => ⟨?_, ?_⟩⟩⟩
    · intro a s' _ hexec
      rw [X.exec] at hexec
      rw [X.quiet c s a s' haside.1 hinv hexec, hv]
      exact ih _ ((haside.2 hopens).1 a (X.replied c s a s' hexec))
    · intro e _
      exact ih _ ((haside.2 hopens).2 e)

/-- Every call is aside and the thing is at rest, or one call has its turn. -/
inductive Taken (T : Turn C R ε σ V) (replies : (c : C) → R c → Prop) (cfg : Config K C R ε σ α) :
    Prop
  | free (rest : T.rest (T.view cfg.state))
      (aside : ∀ j th, cfg.thread j = some th → th.proc.Aside T.touches T.opens replies)
  | held (i : ℕ) (th : Thread K C R ε α) (here : cfg.thread i = some th)
      (turn : th.proc.Turns T (T.view cfg.state))
      (aside : ∀ j thj, cfg.thread j = some thj → j ≠ i → thj.proc.Aside T.touches T.opens replies)

/-- The step of the call that has its turn, or that begins one. -/
theorem TakesTurns.turn_next (X : TakesTurns S D T replies) {th : Thread K C R ε α}
    {fault : Option ε} {c : C} {next : Except ε (R c) → Proc C R ε α} (hinv : T.inv cfg.state)
    (hfault : fault = none ∨ S.mayFail c = true)
    (hD : D.onStep cfg th c (failed (outcome fault (S.exec c cfg.state))))
    (hbegins : T.Begins c next) (hturn : (Proc.await c next).Turns T (T.view cfg.state)) :
    (next (reply (outcome fault (S.exec c cfg.state)))).Turns T
      (T.view (after (outcome fault (S.exec c cfg.state)) cfg.state)) := by
  have hallows := X.allows cfg th c fault hfault hD
  cases hopens : T.opens c with
  | true =>
    obtain ⟨hok, herror⟩ := hbegins hopens cfg.state hinv (hturn.1 hopens)
    cases hout : outcome fault (S.exec c cfg.state) with
    | error e => exact herror e
    | ok r =>
      have hexec := (outcome_eq_ok hout).2
      rw [after_ok, X.quiet c _ r.1 r.2 (X.lookup c hopens) hinv hexec]
      exact hok r.1 r.2 (by rw [X.exec, hexec])
  | false =>
    obtain ⟨hok, herror⟩ := (hturn.2 hopens).2 cfg.state hinv rfl
    cases hout : outcome fault (S.exec c cfg.state) with
    | error e =>
      rw [hout] at hallows
      exact herror e hallows
    | ok r =>
      rw [hout] at hallows
      exact hok r.1 r.2 hallows (by rw [X.exec, (outcome_eq_ok hout).2])

/-- **Step lemma.** -/
theorem TakesTurns.step (X : TakesTurns S D T replies) {i : ℕ} {fault : Option ε}
    {th : Thread K C R ε α} {c : C} {next : Except ε (R c) → Proc C R ε α} (htaken : Taken T replies cfg)
    (hinv : T.inv cfg.state) (hth : cfg.thread i = some th) (hproc : th.proc = .await c next)
    (hfault : fault = none ∨ S.mayFail c = true)
    (hD : D.onStep cfg th c (failed (outcome fault (S.exec c cfg.state))))
    (hbegins : T.Begins c next) :
    Taken T replies (cfg.resume th next (outcome fault (S.exec c cfg.state))) := by
  have hself : (cfg.resume th next (outcome fault (S.exec c cfg.state))).thread i =
      some { th with
        begun := true, proc := next (reply (outcome fault (S.exec c cfg.state))) } := by
    rw [Config.thread_resume, if_pos (Config.id_of_thread hth)]
  have hothers : ∀ {j thj}, (cfg.resume th next (outcome fault (S.exec c cfg.state))).thread j =
      some thj → j ≠ i → cfg.thread j = some thj := by
    intro j thj hthj hji
    rwa [Config.thread_resume_ne hth hji] at hthj
  -- the call has its turn from here on
  have htakes : th.proc.Turns T (T.view cfg.state) →
      (∀ j thj, cfg.thread j = some thj → j ≠ i → thj.proc.Aside T.touches T.opens replies) →
      Taken T replies (cfg.resume th next (outcome fault (S.exec c cfg.state))) := by
    intro hturn haside
    rw [hproc] at hturn
    exact .held i _ hself (X.turn_next hinv hfault hD hbegins hturn) fun j thj hthj hji =>
      haside j thj (hothers hthj hji) hji
  -- a call that is aside and does not look the thing up stays so
  have hstays : th.proc.Aside T.touches T.opens replies → T.opens c = false →
      T.view (after (outcome fault (S.exec c cfg.state)) cfg.state) = T.view cfg.state ∧
      (next (reply (outcome fault (S.exec c cfg.state)))).Aside T.touches T.opens replies := by
    intro haside hopens
    rw [hproc] at haside
    obtain ⟨hok, herror⟩ := haside.2 hopens
    cases hout : outcome fault (S.exec c cfg.state) with
    | error e => exact ⟨rfl, herror e⟩
    | ok r =>
      have hexec := (outcome_eq_ok hout).2
      exact ⟨X.quiet c _ r.1 r.2 haside.1 hinv hexec, hok r.1 (X.replied c _ r.1 r.2 hexec)⟩
  cases htaken with
  | free hrest haside =>
    exact htakes (X.turns_of_aside (haside i th hth) hrest) fun j thj hthj _ => haside j thj hthj
  | held j thj hthj hturn haside =>
    by_cases hji : j = i
    · subst hji
      obtain rfl := Option.some.inj (hth.symm.trans hthj)
      exact htakes hturn haside
    · cases hopens : T.opens c with
      | true =>
        -- the call that had its turn is over with it
        have halone := X.alone cfg th c _ hD hopens
        rw [Config.id_of_thread hth] at halone
        have hrest := X.rest_of_aside hinv (halone j thj hthj hji) hturn
        exact htakes (X.turns_of_aside (haside i th hth (Ne.symm hji)) hrest) halone
      | false =>
        obtain ⟨hview, hnext⟩ := hstays (haside i th hth (Ne.symm hji)) hopens
        refine .held j thj ?_ ?_ fun l thl hthl hlj => ?_
        · rw [Config.thread_resume_ne hth hji, hthj]
        · rw [Config.resume_state, hview]
          exact hturn
        · by_cases hli : l = i
          · subst hli
            rw [hself] at hthl
            cases hthl
            exact hnext
          · exact haside l thl (hothers hthl hli) hlj

theorem TakesTurns.taken (X : TakesTurns S D T replies) (hnil : cfg₀.threads = [])
    (hinv : T.inv cfg₀.state) (hrest : T.rest (T.view cfg₀.state)) (h : Reach S D cfg₀ cfg) :
    T.inv cfg.state ∧ Taken T replies cfg := by
  have hall := h.invariant_always_by (I := fun cfg => T.inv cfg.state ∧ Taken T replies cfg)
    (G := fun _ => replies) (Q := fun _ _ c next => T.Begins c next) ⟨hinv, ?_⟩ hnil X.prog
    (fun cfg i k hI hfresh _ => ⟨hI.1, ?_⟩)
    fun cfg i fault th c next hI hth hproc hbegins hfault hD => ⟨⟨?_, ?_⟩, ?_⟩
  · exact hall.1
  · refine .free hrest fun j th hth => ?_
    rw [Config.thread, hnil] at hth
    cases hth
  · cases hI.2 with
    | free hrest' haside =>
      refine .free hrest' fun j th hth => ?_
      rcases Config.thread_spawn_cases hth with ⟨rfl, rfl⟩ | hold
      · exact X.fresh j k
      · exact haside j th hold
    | held j thj hthj hturn haside =>
      have hji : i ≠ j := by
        rintro rfl
        rw [hfresh] at hthj
        cases hthj
      refine .held j thj ?_ hturn fun l th hth hlj => ?_
      · rw [Config.thread_spawn, if_neg hji, hthj]
      · rcases Config.thread_spawn_cases hth with ⟨rfl, rfl⟩ | hold
        · exact X.fresh l k
        · exact haside l th hold hlj
  · rw [Config.resume_state]
    cases hout : outcome fault (S.exec c cfg.state) with
    | error e => exact hI.1
    | ok r => exact X.keeps c _ r.1 r.2 (outcome_eq_ok hout).2 hI.1
  · exact X.step hI.2 hI.1 hth hproc hfault hD hbegins
  · exact fun a s' hout => X.replied c _ a s' (outcome_eq_ok hout).2

/-- **Turns.** -/
theorem Reach.turns (h : Reach S D cfg₀ cfg) (X : TakesTurns S D T replies)
    (hnil : cfg₀.threads = []) (hinv : T.inv cfg₀.state) (hrest : T.rest (T.view cfg₀.state)) :
    T.safe (T.view cfg.state) ∧
    ((∀ i th, cfg.thread i = some th → th.proc.Aside T.touches T.opens replies) →
      T.rest (T.view cfg.state)) := by
  obtain ⟨hinv', htaken⟩ := X.taken hnil hinv hrest h
  cases htaken with
  | free hrest' _ => exact ⟨X.safe _ hrest', fun _ => hrest'⟩
  | held i th hth hturn _ =>
    refine ⟨?_, fun haside => X.rest_of_aside hinv' (haside i th hth) hturn⟩
    cases hproc : th.proc with
    | done r =>
      rw [hproc] at hturn
      exact X.safe _ hturn
    | await c next =>
      rw [hproc] at hturn
      cases hopens : T.opens c with
      | true => exact X.safe _ (hturn.1 hopens)
      | false => exact (hturn.2 hopens).1

end TakesTurns

end Async
