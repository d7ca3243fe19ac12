import NexaFx.Lib.Table

/-!
# Asynchronous calls

An `async` function is a sequence of awaited commands with synchronous code in
between. `Proc` is that shape as a tree: `await c next` issues the command `c`
and continues with its reply, or with the error it was rejected with; `done`
returns or throws. Commands are first-order data with a reply type each, so
*what* a call asks of its environment is separate from what the environment
does: a meaning is given by an `Exec`, the atomic effect of each command on
the shared state.

* `Proc.run` — a call alone, with a chosen set of awaits failing;
* `Proc.trace` — the steps of that run with the state after each, and
  `Proc.Yields`, rules to execute a call symbolically;
* `Proc.Issues` — every command a call can ever issue satisfies a predicate,
  and `run_inv`, what such a predicate says about a run;
* `Proc.Always` — the same under an assumption on the replies, and with a say
  about the rest of the call;
* `Proc.Closes` — right after which command a call returns;
* `Proc.Obeys` — in which order a call issues its commands;
* `Proc.embed` — a call as a call of a system with more commands.

A failing await has no effect on the state: the environment either performs
the command or rejects it.
-/

namespace Async

/-- A call that issues commands of type `C` (with replies `R c`), and ends
with a value of type `α` or an error of type `ε`. -/
inductive Proc (C : Type) (R : C → Type) (ε α : Type) where
  | done (r : Except ε α)
  | await (c : C) (next : Except ε (R c) → Proc C R ε α)

/-- The atomic effect of each command: its reply and the new state, or the
error it is rejected with. -/
abbrev Exec (C : Type) (R : C → Type) (ε σ : Type) :=
  (c : C) → σ → Except ε (R c × σ)

/-- What an await comes back with when the environment injects `fault`. -/
def outcome {ε β : Type} (fault : Option ε) (r : Except ε β) : Except ε β :=
  match fault with
  | some e => .error e
  | none => r

@[simp] theorem outcome_none {ε β : Type} (r : Except ε β) : outcome none r = r := rfl
@[simp] theorem outcome_some {ε β : Type} (e : ε) (r : Except ε β) :
    outcome (some e) r = .error e := rfl

theorem outcome_eq_ok {ε β : Type} {fault : Option ε} {r : Except ε β} {b : β}
    (h : outcome fault r = .ok b) : fault = none ∧ r = .ok b := by
  cases fault with
  | none => exact ⟨rfl, h⟩
  | some e => cases h

namespace Proc

variable {C : Type} {R : C → Type} {ε α β γ σ : Type}

/-! ## Programs -/

/-- `await c`. -/
def call (c : C) : Proc C R ε (R c) := .await c .done

/-- Continue with the value; an error skips the rest. -/
protected def bind : Proc C R ε α → (α → Proc C R ε β) → Proc C R ε β
  | .done (.ok a), k => k a
  | .done (.error e), _ => .done (.error e)
  | .await c next, k => .await c fun r => (next r).bind k

/-- `try { p } catch`: the error as a value. -/
def attempt : Proc C R ε α → Proc C R ε (Except ε α)
  | .done r => .done (.ok r)
  | .await c next => .await c fun r => (next r).attempt

/-- `throw`. -/
def throw (e : ε) : Proc C R ε α := .done (.error e)

/-- Return a value or rethrow an error. -/
def ofExcept (r : Except ε α) : Proc C R ε α := .done r

/-- `if (c) throw e`. -/
def rejectWhen (c : Prop) [Decidable c] (e : ε) : Proc C R ε Unit :=
  if c then .throw e else .done (.ok ())

instance : Monad (Proc C R ε) where
  pure a := .done (.ok a)
  bind := Proc.bind

/-- `try { p } finally { fin }`: an error of `fin` replaces what `p` ended with. -/
def ensure (p : Proc C R ε α) (fin : Proc C R ε Unit) : Proc C R ε α := do
  let r ← p.attempt
  fin
  ofExcept r

@[simp] theorem pure_eq (a : α) : (pure a : Proc C R ε α) = .done (.ok a) := rfl
@[simp] theorem bind_eq (p : Proc C R ε α) (k : α → Proc C R ε β) : p >>= k = p.bind k := rfl
@[simp] theorem done_ok_bind (a : α) (k : α → Proc C R ε β) :
    (Proc.done (.ok a)).bind k = k a := rfl
@[simp] theorem done_error_bind (e : ε) (k : α → Proc C R ε β) :
    (Proc.done (.error e)).bind k = .done (.error e) := rfl
@[simp] theorem await_bind (c : C) (next : Except ε (R c) → Proc C R ε α)
    (k : α → Proc C R ε β) :
    (Proc.await c next).bind k = .await c fun r => (next r).bind k := rfl
@[simp] theorem attempt_done (r : Except ε α) :
    (Proc.done r : Proc C R ε α).attempt = .done (.ok r) := rfl
@[simp] theorem attempt_await (c : C) (next : Except ε (R c) → Proc C R ε α) :
    (Proc.await c next).attempt = .await c fun r => (next r).attempt := rfl

theorem rejectWhen_pos {c : Prop} [Decidable c] (h : c) (e : ε) :
    (rejectWhen c e : Proc C R ε Unit) = .done (.error e) := if_pos h

theorem rejectWhen_neg {c : Prop} [Decidable c] (h : ¬ c) (e : ε) :
    (rejectWhen c e : Proc C R ε Unit) = .done (.ok ()) := if_neg h

theorem bind_assoc (p : Proc C R ε α) (k : α → Proc C R ε β) (l : β → Proc C R ε γ) :
    (p.bind k).bind l = p.bind fun a => (k a).bind l := by
  induction p with
  | done r => cases r <;> rfl
  | await c next ih =>
    simp only [await_bind]
    congr 1
    funext r
    exact ih r

theorem bind_return (p : Proc C R ε α) : (p.bind fun a => .done (.ok a)) = p := by
  induction p with
  | done r => cases r <;> rfl
  | await c next ih =>
    rw [await_bind]
    congr 1
    funext r
    exact ih r

/-- What follows a call sees only what it returns. -/
theorem bind_eq_attempt (p : Proc C R ε α) (k : α → Proc C R ε β) :
    p.bind k = p.attempt.bind fun r => (done r).bind k := by
  induction p with
  | done r => rfl
  | await c next ih =>
    simp only [await_bind, attempt_await]
    congr 1
    funext r
    exact ih r

/-- The call has returned or thrown. -/
def isDone : Proc C R ε α → Bool
  | .done _ => true
  | .await _ _ => false

/-- The call has returned normally. -/
def returned : Proc C R ε α → Option α
  | .done (.ok a) => some a
  | _ => none

/-! ## Running a call alone -/

/-- Run a call to its end; the awaits on which `φ` gives an error fail with it. -/
def run (exec : Exec C R ε σ) (φ : C → Option ε) : Proc C R ε α → σ → Except ε α × σ
  | .done r, s => (r, s)
  | .await c next, s =>
    match outcome (φ c) (exec c s) with
    | .ok (a, s') => run exec φ (next (.ok a)) s'
    | .error e => run exec φ (next (.error e)) s

/-- No await fails other than by what the command itself finds. -/
def noFault : C → Option ε := fun _ => none

/-- One step of a run: the command, whether it was carried out, and the state
it left. -/
structure Step (C σ : Type) where
  cmd : C
  ok : Bool
  after : σ

/-- The steps of a run. -/
def trace (exec : Exec C R ε σ) (φ : C → Option ε) : Proc C R ε α → σ → List (Step C σ)
  | .done _, _ => []
  | .await c next, s =>
    match outcome (φ c) (exec c s) with
    | .ok (a, s') => ⟨c, true, s'⟩ :: trace exec φ (next (.ok a)) s'
    | .error e => ⟨c, false, s⟩ :: trace exec φ (next (.error e)) s

section Run

variable {exec : Exec C R ε σ} {φ : C → Option ε}

@[simp] theorem run_done (r : Except ε α) (s : σ) : (Proc.done r).run exec φ s = (r, s) := rfl

theorem run_await (c : C) (next : Except ε (R c) → Proc C R ε α) (s : σ) :
    (Proc.await c next).run exec φ s =
      match outcome (φ c) (exec c s) with
      | .ok (a, s') => (next (.ok a)).run exec φ s'
      | .error e => (next (.error e)).run exec φ s := by
  rw [run]

/-- Sequential composition: the second part runs from where the first stopped. -/
theorem run_bind (p : Proc C R ε α) (k : α → Proc C R ε β) (s : σ) :
    (p.bind k).run exec φ s =
      match p.run exec φ s with
      | (.ok a, s') => (k a).run exec φ s'
      | (.error e, s') => (.error e, s') := by
  induction p generalizing s with
  | done r => cases r <;> rfl
  | await c next ih =>
    rw [await_bind, run_await, run_await]
    split
    · rw [ih]
    · rw [ih]

theorem run_attempt (p : Proc C R ε α) (s : σ) :
    p.attempt.run exec φ s = (.ok (p.run exec φ s).1, (p.run exec φ s).2) := by
  induction p generalizing s with
  | done r => rfl
  | await c next ih =>
    rw [attempt_await, run_await, run_await]
    split
    · rw [ih]
    · rw [ih]

theorem run_call (c : C) (s : σ) :
    (Proc.call c : Proc C R ε (R c)).run exec φ s =
      match outcome (φ c) (exec c s) with
      | .ok (a, s') => (.ok a, s')
      | .error e => (.error e, s) := by
  rw [Proc.call, run_await]
  split <;> rfl

/-- A command that is carried out. -/
theorem run_call_bind_ok {c : C} {k : R c → Proc C R ε β} {s s' : σ} {a : R c}
    (hφ : φ c = none) (h : exec c s = .ok (a, s')) :
    ((Proc.call c).bind k).run exec φ s = (k a).run exec φ s' := by
  rw [run_bind, run_call, hφ, outcome_none, h]

/-- A command that is rejected, by itself or by an injected fault. -/
theorem run_call_bind_error {c : C} {k : R c → Proc C R ε β} {s : σ} {e : ε}
    (h : outcome (φ c) (exec c s) = .error e) :
    ((Proc.call c).bind k).run exec φ s = (.error e, s) := by
  rw [run_bind, run_call, h]

/-- A command that fails by an injected fault. -/
theorem run_call_bind_fault {c : C} {k : R c → Proc C R ε β} {s : σ} {e : ε}
    (hφ : φ c = some e) : ((Proc.call c).bind k).run exec φ s = (.error e, s) := by
  rw [run_call_bind_error (by rw [hφ, outcome_some])]

theorem run_bind_ok {p : Proc C R ε α} {k : α → Proc C R ε β} {s s' : σ} {a : α}
    (h : p.run exec φ s = (.ok a, s')) :
    (p.bind k).run exec φ s = (k a).run exec φ s' := by
  rw [run_bind, h]

theorem run_bind_error {p : Proc C R ε α} {k : α → Proc C R ε β} {s s' : σ} {e : ε}
    (h : p.run exec φ s = (.error e, s')) :
    (p.bind k).run exec φ s = (.error e, s') := by
  rw [run_bind, h]

/-- A call under `try` goes on with what it ended with. -/
theorem run_attempt_bind (p : Proc C R ε α) (k : Except ε α → Proc C R ε β) (s : σ) :
    (p.attempt.bind k).run exec φ s =
      (k (p.run exec φ s).1).run exec φ (p.run exec φ s).2 := by
  rw [run_bind, run_attempt]

theorem run_rejectWhen_bind (c : Prop) [Decidable c] (e : ε) (k : Unit → Proc C R ε β) (s : σ) :
    ((Proc.rejectWhen c e).bind k).run exec φ s =
      if c then (.error e, s) else (k ()).run exec φ s := by
  unfold rejectWhen Proc.throw
  split <;> rfl

/-- A call that returns has carried out all its parts. -/
theorem run_bind_returns {p : Proc C R ε α} {k : α → Proc C R ε β} {s s'' : σ} {b : β}
    (h : (p.bind k).run exec φ s = (.ok b, s'')) :
    ∃ a s', p.run exec φ s = (.ok a, s') ∧ (k a).run exec φ s' = (.ok b, s'') := by
  rw [run_bind] at h
  split at h
  · rename_i a s' hp
    exact ⟨a, s', hp, h⟩
  · cases h

theorem run_call_returns {c : C} {s s' : σ} {a : R c}
    (h : (Proc.call c : Proc C R ε (R c)).run exec φ s = (.ok a, s')) :
    exec c s = .ok (a, s') := by
  rw [run_call] at h
  split at h
  · rename_i hout
    cases h
    exact (outcome_eq_ok hout).2
  · cases h

theorem fault_of_returns {c : C} {s s' : σ} {a : R c}
    (h : (Proc.call c : Proc C R ε (R c)).run exec φ s = (.ok a, s')) : φ c = none := by
  rw [run_call] at h
  split at h
  · rename_i hout
    exact (outcome_eq_ok hout).1
  · cases h

theorem run_call_bind_returns {c : C} {k : R c → Proc C R ε β} {s s'' : σ} {b : β}
    (h : ((Proc.call c).bind k).run exec φ s = (.ok b, s'')) :
    ∃ a s', exec c s = .ok (a, s') ∧ (k a).run exec φ s' = (.ok b, s'') := by
  obtain ⟨a, s', hp, hk⟩ := run_bind_returns h
  exact ⟨a, s', run_call_returns hp, hk⟩

theorem run_rejectWhen_bind_returns {c : Prop} [Decidable c] {e : ε} {k : Unit → Proc C R ε β}
    {s s' : σ} {b : β} (h : ((Proc.rejectWhen c e).bind k).run exec φ s = (.ok b, s')) :
    ¬ c ∧ (k ()).run exec φ s = (.ok b, s') := by
  rw [run_rejectWhen_bind] at h
  split at h
  · cases h
  · rename_i hc
    exact ⟨hc, h⟩

theorem run_rejectWhen (c : Prop) [Decidable c] (e : ε) (s : σ) :
    (Proc.rejectWhen c e : Proc C R ε Unit).run exec φ s =
      if c then (.error e, s) else (.ok (), s) := by
  unfold rejectWhen Proc.throw
  split <;> rfl

/-- A `try`/`finally` that returns has gone through both parts. -/
theorem run_ensure_returns {p : Proc C R ε α} {fin : Proc C R ε Unit} {s s'' : σ} {a : α}
    (h : (p.ensure fin).run exec φ s = (.ok a, s'')) :
    ∃ s', p.run exec φ s = (.ok a, s') ∧ fin.run exec φ s' = (.ok (), s'') := by
  unfold ensure at h
  simp only [bind_eq] at h
  rw [run_attempt_bind] at h
  cases hp : p.run exec φ s with
  | mk r s' =>
    rw [hp] at h
    obtain ⟨_, s₁, hfin, hrest⟩ := run_bind_returns h
    cases hrest
    exact ⟨s', rfl, hfin⟩

end Run

/-! ## Symbolic execution

`Yields` says at once how a run ends and which steps it takes; its rules follow
the program. -/

/-- From `s` the call ends with `r` in the state `s'`, after the steps `ts`. -/
structure Yields (exec : Exec C R ε σ) (φ : C → Option ε) (p : Proc C R ε α) (s : σ)
    (r : Except ε α) (s' : σ) (ts : List (Step C σ)) : Prop where
  run : p.run exec φ s = (r, s')
  trace : p.trace exec φ s = ts

section Yields

variable {exec : Exec C R ε σ} {φ : C → Option ε} {s s' s'' : σ} {ts ts' : List (Step C σ)}

theorem yields (exec : Exec C R ε σ) (φ : C → Option ε) (p : Proc C R ε α) (s : σ) :
    Yields exec φ p s (p.run exec φ s).1 (p.run exec φ s).2 (p.trace exec φ s) :=
  ⟨rfl, rfl⟩

theorem Yields.done (r : Except ε α) (s : σ) : Yields exec φ (.done r) s r s [] :=
  ⟨rfl, rfl⟩

theorem Yields.call {c : C} {a : R c} (hφ : φ c = none) (h : exec c s = .ok (a, s')) :
    Yields exec φ (Proc.call c) s (.ok a) s' [⟨c, true, s'⟩] := by
  constructor
  · rw [run_call, hφ, outcome_none, h]
  · rw [Proc.call, Proc.trace, hφ, outcome_none, h]
    rfl

theorem Yields.call_error {c : C} {e : ε} (h : outcome (φ c) (exec c s) = .error e) :
    Yields exec φ (Proc.call c) s (.error e) s [⟨c, false, s⟩] := by
  constructor
  · rw [run_call, h]
  · rw [Proc.call, Proc.trace, h]
    rfl

theorem trace_await (c : C) (next : Except ε (R c) → Proc C R ε α) (s : σ) :
    (Proc.await c next).trace exec φ s =
      match outcome (φ c) (exec c s) with
      | .ok (a, s') => ⟨c, true, s'⟩ :: (next (.ok a)).trace exec φ s'
      | .error e => ⟨c, false, s⟩ :: (next (.error e)).trace exec φ s := by
  rw [trace]

theorem trace_bind (p : Proc C R ε α) (k : α → Proc C R ε β) (s : σ) :
    (p.bind k).trace exec φ s = p.trace exec φ s ++
      match p.run exec φ s with
      | (.ok a, s') => (k a).trace exec φ s'
      | (.error _, _) => [] := by
  induction p generalizing s with
  | done r => cases r <;> rfl
  | await c next ih =>
    rw [await_bind, trace_await, trace_await, run_await]
    split
    · rw [ih, List.cons_append]
    · rw [ih, List.cons_append]

theorem Yields.bind {p : Proc C R ε α} {k : α → Proc C R ε β} {a : α} {r : Except ε β}
    (hp : Yields exec φ p s (.ok a) s' ts) (hk : Yields exec φ (k a) s' r s'' ts') :
    Yields exec φ (p.bind k) s r s'' (ts ++ ts') := by
  constructor
  · rw [run_bind_ok hp.run, hk.run]
  · rw [trace_bind, hp.run, hp.trace]
    exact congrArg (ts ++ ·) hk.trace

theorem Yields.bind_error {p : Proc C R ε α} {k : α → Proc C R ε β} {e : ε}
    (hp : Yields exec φ p s (.error e) s' ts) :
    Yields exec φ (p.bind k) s (.error e) s' ts := by
  constructor
  · rw [run_bind_error hp.run]
  · rw [trace_bind, hp.run, hp.trace, List.append_nil]

theorem trace_attempt (p : Proc C R ε α) (s : σ) :
    p.attempt.trace exec φ s = p.trace exec φ s := by
  induction p generalizing s with
  | done r => rfl
  | await c next ih =>
    rw [attempt_await, trace_await, trace_await]
    split
    · rw [ih]
    · rw [ih]

theorem Yields.attempt {p : Proc C R ε α} {r : Except ε α} (hp : Yields exec φ p s r s' ts) :
    Yields exec φ p.attempt s (.ok r) s' ts := by
  constructor
  · rw [run_attempt, hp.run]
  · rw [trace_attempt, hp.trace]

end Yields

/-! ## What a call may ask for -/

/-- Every command the call can issue, whatever the replies, satisfies `P`. -/
def Issues (P : C → Prop) : Proc C R ε α → Prop
  | .done _ => True
  | .await c next => P c ∧ ∀ r, (next r).Issues P

section Issues

variable {P : C → Prop}

@[simp] theorem issues_done (r : Except ε α) : (Proc.done r : Proc C R ε α).Issues P := trivial

@[simp] theorem issues_call {c : C} : (Proc.call c : Proc C R ε (R c)).Issues P ↔ P c := by
  simp [Proc.call, Issues]

@[simp] theorem issues_throw (e : ε) : (Proc.throw e : Proc C R ε α).Issues P := trivial

@[simp] theorem issues_ofExcept (r : Except ε α) : (Proc.ofExcept r : Proc C R ε α).Issues P :=
  trivial

@[simp] theorem issues_rejectWhen (c : Prop) [Decidable c] (e : ε) :
    (Proc.rejectWhen c e : Proc C R ε Unit).Issues P := by
  unfold rejectWhen
  split <;> simp

theorem issues_bind {p : Proc C R ε α} {k : α → Proc C R ε β} (hp : p.Issues P)
    (hk : ∀ a, (k a).Issues P) : (p.bind k).Issues P := by
  induction p with
  | done r =>
    cases r with
    | ok a => exact hk a
    | error e => trivial
  | await c next ih => exact ⟨hp.1, fun r => ih r (hp.2 r)⟩

/-- What a call issues after an await comes back with `a`. -/
theorem Issues.reply {c : C} {k : R c → Proc C R ε β}
    (h : ((Proc.call c : Proc C R ε (R c)).bind k).Issues P) (a : R c) : (k a).Issues P :=
  h.2 (.ok a)

theorem issues_attempt {p : Proc C R ε α} (hp : p.Issues P) : p.attempt.Issues P := by
  induction p with
  | done r => trivial
  | await c next ih => exact ⟨hp.1, fun r => ih r (hp.2 r)⟩

theorem issues_true (p : Proc C R ε α) : p.Issues fun _ => True := by
  induction p with
  | done r => trivial
  | await c next ih => exact ⟨trivial, ih⟩

theorem Issues.mono {Q : C → Prop} (h : ∀ c, P c → Q c) {p : Proc C R ε α} (hp : p.Issues P) :
    p.Issues Q := by
  induction p with
  | done r => trivial
  | await c next ih => exact ⟨h c hp.1, fun r => ih r (hp.2 r)⟩

/-- Only the faults on the commands a call can issue matter. -/
theorem run_congr {exec : Exec C R ε σ} {φ φ' : C → Option ε} {p : Proc C R ε α}
    (hp : p.Issues P) (h : ∀ c, P c → φ c = φ' c) (s : σ) :
    p.run exec φ s = p.run exec φ' s := by
  induction p generalizing s with
  | done r => rfl
  | await c next ih =>
    rw [run_await, run_await, h c hp.1]
    split
    · exact ih _ (hp.2 _) _
    · exact ih _ (hp.2 _) _

/-- A property of the state that every issued command keeps is kept by the run. -/
theorem run_inv {exec : Exec C R ε σ} {φ : C → Option ε} {I : σ → Prop}
    {p : Proc C R ε α} (hp : p.Issues P)
    (hstep : ∀ c, P c → ∀ s a s', exec c s = .ok (a, s') → I s → I s')
    {s : σ} (hs : I s) : I (p.run exec φ s).2 := by
  induction p generalizing s with
  | done r => exact hs
  | await c next ih =>
    rw [run_await]
    split
    · rename_i a s' hout
      exact ih _ (hp.2 _) (hstep c hp.1 s a s' (outcome_eq_ok hout).2 hs)
    · exact ih _ (hp.2 _) hs

/-- Every step of a run issues such a command and leaves such a state. -/
theorem trace_inv {exec : Exec C R ε σ} {φ : C → Option ε} {I : σ → Prop}
    {p : Proc C R ε α} (hp : p.Issues P)
    (hstep : ∀ c, P c → ∀ s a s', exec c s = .ok (a, s') → I s → I s')
    {s : σ} (hs : I s) : ∀ st ∈ p.trace exec φ s, P st.cmd ∧ I st.after := by
  induction p generalizing s with
  | done r =>
    intro st hst
    cases hst
  | await c next ih =>
    rw [trace_await]
    split
    · rename_i a s' hout
      have hs' := hstep c hp.1 s a s' (outcome_eq_ok hout).2 hs
      intro st hst
      rcases List.mem_cons.mp hst with rfl | hmem
      · exact ⟨hp.1, hs'⟩
      · exact ih _ (hp.2 _) hs' st hmem
    · intro st hst
      rcases List.mem_cons.mp hst with rfl | hmem
      · exact ⟨hp.1, hs⟩
      · exact ih _ (hp.2 _) hs st hmem

end Issues

/-! ## Checks -/

/-- From `s` the call changes nothing, whatever fails, and returns only if `A`;
if `A`, and nothing fails, it does. -/
structure Checks (exec : Exec C R ε σ) (p : Proc C R ε Unit) (s : σ) (A : Prop) : Prop where
  passes : A → p.run exec noFault s = (.ok (), s)
  refuses : ∀ φ, (∃ e, p.run exec φ s = (.error e, s)) ∨ (A ∧ p.run exec φ s = (.ok (), s))

section Checks

variable {exec : Exec C R ε σ} {s s' : σ} {A B : Prop}

theorem checks_done : Checks exec (.done (.ok ())) s True :=
  ⟨fun _ => rfl, fun _ => Or.inr ⟨trivial, rfl⟩⟩

theorem Checks.iff {p : Proc C R ε Unit} (h : Checks exec p s A) (hAB : A ↔ B) :
    Checks exec p s B :=
  propext hAB ▸ h

/-- A command that only reads. -/
theorem checks_read_bind {c : C} {a : R c} {k : R c → Proc C R ε Unit}
    (hexec : exec c s = .ok (a, s)) (hk : Checks exec (k a) s A) :
    Checks exec ((Proc.call c).bind k) s A := by
  refine ⟨fun hA => ?_, fun φ => ?_⟩
  · rw [run_call_bind_ok rfl hexec]
    exact hk.passes hA
  · cases hφ : φ c with
    | some e =>
      refine Or.inl ⟨e, run_call_bind_error ?_⟩
      rw [hφ, outcome_some]
    | none =>
      rw [run_call_bind_ok hφ hexec]
      exact hk.refuses φ

/-- A command that is refused. -/
theorem checks_refused_bind {c : C} {e : ε} {k : R c → Proc C R ε Unit}
    (hexec : exec c s = .error e) : Checks exec ((Proc.call c).bind k) s False := by
  refine ⟨False.elim, fun φ => Or.inl ?_⟩
  obtain ⟨e', he'⟩ : ∃ e', outcome (φ c) (exec c s) = .error e' := by
    rw [hexec]
    cases φ c with
    | some e' => exact ⟨e', rfl⟩
    | none => exact ⟨e, rfl⟩
  exact ⟨e', run_call_bind_error he'⟩

theorem checks_rejectWhen_bind {c : Prop} [Decidable c] {e : ε} {k : Unit → Proc C R ε Unit}
    (hk : Checks exec (k ()) s A) : Checks exec ((Proc.rejectWhen c e).bind k) s (¬ c ∧ A) := by
  by_cases hc : c
  · rw [rejectWhen_pos hc]
    exact ⟨fun h => absurd hc h.1, fun φ => Or.inl ⟨e, rfl⟩⟩
  · rw [rejectWhen_neg hc]
    exact hk.iff (and_iff_right hc).symm

/-- What follows the checks. -/
theorem Checks.run_bind_refused {p : Proc C R ε Unit} {k : Unit → Proc C R ε β}
    (h : Checks exec p s A) {I : σ → Prop} (hs : I s) {φ : C → Option ε}
    (hk : A → ∃ e s', (k ()).run exec φ s = (.error e, s') ∧ I s') :
    ∃ e s', (p.bind k).run exec φ s = (.error e, s') ∧ I s' := by
  rcases h.refuses φ with ⟨e, hrun⟩ | ⟨hA, hrun⟩
  · exact ⟨e, s, run_bind_error hrun, hs⟩
  · rw [run_bind_ok hrun]
    exact hk hA

end Checks

/-! ## What holds at every await -/

/-- At every await the call comes to while the replies satisfy `G`, the command
and the rest of the call satisfy `Q`. -/
inductive Always (G : (c : C) → R c → Prop)
    (Q : (c : C) → (Except ε (R c) → Proc C R ε α) → Prop) : Proc C R ε α → Prop
  | done (r : Except ε α) : Always G Q (.done r)
  | await {c : C} {next : Except ε (R c) → Proc C R ε α} (here : Q c next)
      (ok : ∀ a, G c a → Always G Q (next (.ok a))) (error : ∀ e, Always G Q (next (.error e))) :
      Always G Q (.await c next)

section Always

variable {G : (c : C) → R c → Prop} {Q : (c : C) → (Except ε (R c) → Proc C R ε α) → Prop}

theorem Always.inv {c : C} {next : Except ε (R c) → Proc C R ε α}
    (h : (Proc.await c next).Always G Q) :
    Q c next ∧ (∀ a, G c a → (next (.ok a)).Always G Q) ∧ ∀ e, (next (.error e)).Always G Q := by
  cases h with
  | await here ok error => exact ⟨here, ok, error⟩

theorem Always.mono {Q' : (c : C) → (Except ε (R c) → Proc C R ε α) → Prop}
    (h : ∀ c next, Q c next → Q' c next) {p : Proc C R ε α} (hp : p.Always G Q) :
    p.Always G Q' := by
  induction hp with
  | done r => exact .done r
  | await here _ _ ihok iherror => exact .await (h _ _ here) ihok iherror

/-- Fewer replies to be expected. -/
theorem Always.replies {G' : (c : C) → R c → Prop} (h : ∀ c a, G' c a → G c a)
    {p : Proc C R ε α} (hp : p.Always G Q) : p.Always G' Q := by
  induction hp with
  | done r => exact .done r
  | await here _ _ ihok iherror => exact .await here (fun a ha => ihok a (h _ a ha)) iherror

/-- `await c` and go on. -/
theorem always_call_bind {c : C} {k : R c → Proc C R ε α}
    (hQ : Q c fun r => (Proc.done r).bind k) (hk : ∀ a, G c a → (k a).Always G Q) :
    ((Proc.call c).bind k).Always G Q :=
  .await hQ hk fun e => .done (.error e)

/-- What a check turns away has ended. -/
theorem always_rejectWhen_bind {c : Prop} [Decidable c] {e : ε} {k : Unit → Proc C R ε α}
    (hk : ¬ c → (k ()).Always G Q) : ((rejectWhen c e).bind k).Always G Q := by
  unfold rejectWhen
  split
  · exact .done _
  · rename_i hc
    exact hk hc

/-- `await c` inside a `try`: an error goes to the handler. -/
theorem always_try_call_bind {c : C} {k : R c → Proc C R ε β}
    {handle : Except ε β → Proc C R ε α}
    (hQ : Q c fun r => (((Proc.done r).bind k).attempt).bind handle)
    (hk : ∀ a, G c a → ((k a).attempt.bind handle).Always G Q)
    (herror : ∀ e, (handle (.error e)).Always G Q) :
    (((Proc.call c).bind k).attempt.bind handle).Always G Q :=
  .await hQ hk herror

theorem always_try_rejectWhen_bind {c : Prop} [Decidable c] {e : ε} {k : Unit → Proc C R ε β}
    {handle : Except ε β → Proc C R ε α} (hreject : (handle (.error e)).Always G Q)
    (hk : ¬ c → ((k ()).attempt.bind handle).Always G Q) :
    ((((rejectWhen c e).bind k).attempt).bind handle).Always G Q := by
  unfold rejectWhen
  split
  · exact hreject
  · rename_i hc
    exact hk hc

theorem always_of_issues {P : C → Prop} (h : ∀ c next, P c → Q c next) {p : Proc C R ε α}
    (hp : p.Issues P) : p.Always G Q := by
  induction p with
  | done r => exact .done r
  | await c next ih =>
    exact .await (h c next hp.1) (fun a _ => ih _ (hp.2 _)) fun e => ih _ (hp.2 _)

/-- A part of which every command will do, and what follows it. -/
theorem always_bind_of_issues {P : C → Prop} {p : Proc C R ε β} {k : β → Proc C R ε α}
    (hp : p.Issues P) (hP : ∀ c next, P c → Q c next) (hk : ∀ a, (k a).Always G Q) :
    (p.bind k).Always G Q := by
  induction p with
  | done r =>
    cases r with
    | ok a => exact hk a
    | error e => exact .done _
  | await c next ih =>
    exact .await (hP c _ hp.1) (fun a _ => ih _ (hp.2 _)) fun e => ih _ (hp.2 _)

theorem Always.and {Q' : (c : C) → (Except ε (R c) → Proc C R ε α) → Prop} {p : Proc C R ε α}
    (h : p.Always G Q) (h' : p.Always G Q') : p.Always G fun c next => Q c next ∧ Q' c next := by
  induction h with
  | done r => exact .done r
  | await here _ _ ihok iherror =>
    obtain ⟨here', hok', herror'⟩ := h'.inv
    exact .await ⟨here, here'⟩ (fun a hG => ihok a hG (hok' a hG)) fun e => iherror e (herror' e)

theorem always_bind {P : C → Prop} {p : Proc C R ε α} {k : α → Proc C R ε β}
    (hp : p.Always G fun c _ => P c)
    (hk : ∀ a, (k a).Always G fun c _ => P c) : (p.bind k).Always G fun c _ => P c := by
  induction hp with
  | done r =>
    cases r with
    | ok a => exact hk a
    | error e => exact .done _
  | await here _ _ ihok iherror => exact .await here ihok iherror

theorem always_attempt {P : C → Prop} {p : Proc C R ε α} (hp : p.Always G fun c _ => P c) :
    p.attempt.Always G fun c _ => P c := by
  induction hp with
  | done r => exact .done _
  | await here _ _ ihok iherror => exact .await here ihok iherror

end Always

/-! ## After what a call returns -/

/-- When the call returns, it does so right after a command that satisfies `P`
and was carried out. -/
inductive Closes (P : C → Prop) : Proc C R ε α → Prop
  | error (e : ε) : Closes P (.done (.error e))
  | await {c : C} {next : Except ε (R c) → Proc C R ε α} (ok : ∀ a, Closes P (next (.ok a)))
      (error : ∀ e, Closes P (next (.error e))) : Closes P (.await c next)
  | last {c : C} {next : Except ε (R c) → Proc C R ε α} (here : P c)
      (ok : ∀ a, (next (.ok a)).isDone = true) (error : ∀ e, Closes P (next (.error e))) :
      Closes P (.await c next)

section Closes

variable {G : (c : C) → R c → Prop} {P : C → Prop}

theorem closes_bind {p : Proc C R ε β} {k : β → Proc C R ε α} (hk : ∀ b, (k b).Closes P) :
    (p.bind k).Closes P := by
  induction p with
  | done r =>
    cases r with
    | ok b => exact hk b
    | error e => exact .error e
  | await c next ih => exact .await (fun a => ih _) fun e => ih _

theorem always_of_closes {p : Proc C R ε α} (h : p.Closes P) :
    p.Always G fun c next => ∀ r a, next r = .done (.ok a) → P c ∧ r.isOk = true := by
  induction h with
  | error e => exact .done _
  | await hok herror ihok iherror =>
    refine .await ?_ (fun a _ => ihok a) iherror
    intro r a hdone
    cases r with
    | ok b =>
      have hclosed := hok b
      rw [hdone] at hclosed
      cases hclosed
    | error e =>
      have hclosed := herror e
      rw [hdone] at hclosed
      cases hclosed
  | @last c next here hok herror iherror =>
    refine .await ?_ ?_ iherror
    · intro r a hdone
      cases r with
      | ok b => exact ⟨here, rfl⟩
      | error e =>
        have hclosed := herror e
        rw [hdone] at hclosed
        cases hclosed
    · intro a _
      cases hnext : next (.ok a) with
      | done r => exact .done r
      | await c' next' =>
        have hdone := hok a
        rw [hnext] at hdone
        cases hdone

end Closes

/-! ## Stages -/

section Obeys

variable {Q : Type}

/-- From the stage `q` on, the call issues only commands that `δ` knows in the
stage it has come to, and goes on from the stage that `δ` gives for the outcome;
it ends only as `ends` says of that stage. -/
def Obeys (δ : Q → C → Bool → Option Q) (ends : Q → Except ε α → Prop) : Proc C R ε α → Q → Prop
  | .done r, q => ends q r
  | .await c next, q =>
    (∀ a, ∃ q', δ q c true = some q' ∧ (next (.ok a)).Obeys δ ends q') ∧
      ∀ e, ∃ q', δ q c false = some q' ∧ (next (.error e)).Obeys δ ends q'

variable {δ : Q → C → Bool → Option Q} {ends : Q → Except ε α → Prop} {q q' q'' : Q}

theorem obeys_call_bind {c : C} {k : R c → Proc C R ε α} (hok : δ q c true = some q')
    (herror : δ q c false = some q'') (hends : ∀ e, ends q'' (.error e))
    (hk : ∀ a, (k a).Obeys δ ends q') : ((Proc.call c).bind k).Obeys δ ends q :=
  ⟨fun a => ⟨q', hok, hk a⟩, fun e => ⟨q'', herror, hends e⟩⟩

theorem obeys_rejectWhen_bind {c : Prop} [Decidable c] {e : ε} {k : Unit → Proc C R ε α}
    (hends : ends q (.error e)) (hk : (k ()).Obeys δ ends q) :
    ((Proc.rejectWhen c e).bind k).Obeys δ ends q := by
  unfold rejectWhen
  split
  · exact hends
  · exact hk

end Obeys

/-! ## A call as part of a larger system -/

section Embed

variable {C' : Type} {R' : C' → Type}

/-- The call with its commands and its result read as those of a larger system. -/
def embed (f : C → C') (g : (c : C) → R' (f c) → R c) (h : α → β) :
    Proc C R ε α → Proc C' R' ε β
  | .done r => .done (r.map h)
  | .await c next => .await (f c) fun r => (next (r.map (g c))).embed f g h

variable {f : C → C'} {g : (c : C) → R' (f c) → R c} {h : α → β}

theorem always_embed {G : (c : C) → R c → Prop}
    {Q : (c : C) → (Except ε (R c) → Proc C R ε α) → Prop} {G' : (c : C') → R' c → Prop}
    {Q' : (c : C') → (Except ε (R' c) → Proc C' R' ε β) → Prop}
    (hG : ∀ c a, G' (f c) a → G c (g c a))
    (hQ : ∀ c next, Q c next → Q' (f c) fun r => (next (r.map (g c))).embed f g h)
    {p : Proc C R ε α} (hp : p.Always G Q) : (p.embed f g h).Always G' Q' := by
  induction hp with
  | done r => exact .done _
  | await here _ _ ihok iherror =>
    exact .await (hQ _ _ here) (fun a ha => ihok _ (hG _ a ha)) fun e => iherror e

/-- An embedded call runs as the call does on its part of the state. -/
theorem run_embed {τ : Type} {exec : Exec C R ε σ} {exec' : Exec C' R' ε τ} (view : τ → σ)
    (put : τ → σ → τ) (hput : ∀ t, put t (view t) = t) (hview : ∀ t s, view (put t s) = s)
    (hputs : ∀ t s s', put (put t s) s' = put t s')
    (hexec : ∀ c t, (exec' (f c) t).map (fun r => (g c r.1, r.2)) =
      (exec c (view t)).map fun r => (r.1, put t r.2))
    (p : Proc C R ε α) (φ : C' → Option ε) (t : τ) :
    (p.embed f g h).run exec' φ t =
      ((p.run exec (fun c => φ (f c)) (view t)).1.map h,
        put t (p.run exec (fun c => φ (f c)) (view t)).2) := by
  induction p generalizing t with
  | done r => exact congrArg (Prod.mk _) (hput t).symm
  | await c next ih =>
    have hc := hexec c t
    rw [embed, run_await, run_await]
    cases hφ : φ (f c) with
    | some e =>
      rw [outcome_some, outcome_some]
      exact ih (.error e) t
    | none =>
      rw [outcome_none, outcome_none]
      cases hr' : exec' (f c) t with
      | error e' =>
        cases hr : exec c (view t) with
        | error e =>
          rw [hr', hr] at hc
          cases hc
          exact ih (.error e') t
        | ok r =>
          rw [hr', hr] at hc
          cases hc
      | ok r' =>
        cases hr : exec c (view t) with
        | error e =>
          rw [hr', hr] at hc
          cases hc
        | ok r =>
          rw [hr', hr] at hc
          obtain ⟨a', t'⟩ := r'
          obtain ⟨a, s'⟩ := r
          obtain ⟨ha, ht⟩ : g c a' = a ∧ t' = put t s' := Prod.mk.inj (Except.ok.inj hc)
          have hrest := ih (.ok a) t'
          rw [ht, hview, hputs] at hrest
          show (Proc.embed f g h (next (.ok (g c a')))).run exec' φ t' = _
          rw [ha, ht]
          exact hrest

theorem issues_embed {P : C → Prop} {P' : C' → Prop} (hP : ∀ c, P c → P' (f c))
    {p : Proc C R ε α} (hp : p.Issues P) : (p.embed f g h).Issues P' := by
  induction p with
  | done r => trivial
  | await c next ih => exact ⟨hP c hp.1, fun r => ih _ (hp.2 _)⟩

/-- The embedded call has returned where the call has. -/
theorem embed_returns {p : Proc C R ε α} {b : β} (hp : p.embed f g h = .done (.ok b)) :
    ∃ a, p = .done (.ok a) ∧ h a = b := by
  cases p with
  | await c next => cases hp
  | done r =>
    cases r with
    | error e => cases hp
    | ok a =>
      cases hp
      exact ⟨a, rfl, rfl⟩

end Embed

end Proc

end Async
