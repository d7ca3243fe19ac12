import NexaFx.Lib.Proc

/-!
# Interleaved calls

A server runs many calls at once: each advances from one await to the next
whenever its command is answered, and between two awaits of a call any other
call may advance. A `Config` is the shared state with the calls made so far;
an `Event` makes a new call or lets one call take its next step, with or
without an injected fault. Every order of steps of every number of calls is a
list of events.

* `System.step` / `System.run` — executable, so a schedule can be evaluated;
* `Reach` — the configurations reached when every event obeys a
  `Discipline` (what the schedule and the faults are allowed to do);
* `Reach.invariant` — an invariant of each allowed event holds in every
  reachable configuration;
* `Reach.follow` — what one call returns while the others develop the state.

Commands may be blocked (`ready`), as a statement waiting for a row lock is,
and some cannot fail (`mayFail`), as a rollback cannot.
-/

namespace Async

/-- One call: its identity, what was called, whether it has taken a step yet,
and what is left of it. -/
structure Thread (K C : Type) (R : C → Type) (ε α : Type) where
  id : ℕ
  call : K
  begun : Bool
  proc : Proc C R ε α

/-- The shared state and all calls made so far, finished ones included. -/
structure Config (K C : Type) (R : C → Type) (ε σ α : Type) where
  state : σ
  threads : List (Thread K C R ε α)

/-- The programs of the calls and the meaning of their commands. -/
structure System (K C : Type) (R : C → Type) (ε σ α : Type) where
  prog : ℕ → K → Proc C R ε α
  exec : Exec C R ε σ
  ready : C → σ → Bool := fun _ _ => true
  mayFail : C → Bool := fun _ => true

/-- Call `k` is made under the fresh identity `i`; or call `i` takes a step. -/
inductive Event (K ε : Type) where
  | call (i : ℕ) (k : K)
  | step (i : ℕ) (fault : Option ε)

variable {K C : Type} {R : C → Type} {ε σ α β : Type}

/-- The call an event is about. -/
def Event.id : Event K ε → ℕ
  | .call i _ => i
  | .step i _ => i

/-! ## Outcomes of a step -/

/-- What the call sees of an outcome. -/
def reply (r : Except ε (β × σ)) : Except ε β := r.map Prod.fst

/-- The state an outcome leaves: a failed command has no effect. -/
def after (r : Except ε (β × σ)) (s : σ) : σ :=
  match r with
  | .ok (_, s') => s'
  | .error _ => s

/-- The await came back with an error. -/
def failed (r : Except ε β) : Bool :=
  match r with
  | .ok _ => false
  | .error _ => true

@[simp] theorem reply_ok (a : β) (s : σ) : reply (.ok (a, s) : Except ε (β × σ)) = .ok a := rfl
@[simp] theorem reply_error (e : ε) : reply (.error e : Except ε (β × σ)) = .error e := rfl
@[simp] theorem after_ok (a : β) (s s' : σ) : after (.ok (a, s') : Except ε (β × σ)) s = s' := rfl
@[simp] theorem after_error (e : ε) (s : σ) : after (.error e : Except ε (β × σ)) s = s := rfl
@[simp] theorem failed_ok (a : β) : failed (.ok a : Except ε β) = false := rfl
@[simp] theorem failed_error (e : ε) : failed (.error e : Except ε β) = true := rfl

/-! ## A call in a state that develops -/

/-- The steps of all calls keep `I` and develop the state within the preorder
`le`. -/
structure Develops (exec : Exec C R ε σ) (I : σ → Prop) (le : σ → σ → Prop) : Prop where
  refl : ∀ s, le s s
  trans : ∀ s₁ s₂ s₃, le s₁ s₂ → le s₂ s₃ → le s₁ s₃
  step : ∀ c s a s', I s → exec c s = .ok (a, s') → I s' ∧ le s s'

/-- Whatever the others do within `le` before each step, the call returns only
what satisfies `post`. -/
def Proc.Follows (exec : Exec C R ε σ) (I : σ → Prop) (le : σ → σ → Prop) (post : α → Prop) :
    Proc C R ε α → σ → Prop
  | .done r, _ => ∀ a, r = .ok a → post a
  | .await c next, s => ∀ s', le s s' → I s' →
      (∀ a s'', exec c s' = .ok (a, s'') → (next (.ok a)).Follows exec I le post s'') ∧
      ∀ e, (next (.error e)).Follows exec I le post s'

namespace Proc

variable {exec : Exec C R ε σ} {I : σ → Prop} {le : σ → σ → Prop} {post : α → Prop}

theorem Follows.later (hdev : Develops exec I le) {p : Proc C R ε α} {s s' : σ}
    (h : p.Follows exec I le post s) (hle : le s s') : p.Follows exec I le post s' := by
  cases p with
  | done r => exact h
  | await c next => exact fun s'' hle' => h s'' (hdev.trans _ _ _ hle hle')

theorem follows_error (e : ε) (s : σ) :
    (Proc.done (.error e) : Proc C R ε α).Follows exec I le post s := by
  intro a heq
  cases heq

theorem follows_call_bind {c : C} {k : R c → Proc C R ε α} {s : σ}
    (hk : ∀ s', le s s' → I s' → ∀ a s'', exec c s' = .ok (a, s'') →
      (k a).Follows exec I le post s'') :
    ((Proc.call c).bind k).Follows exec I le post s :=
  fun s' hle hI => ⟨hk s' hle hI, fun e => follows_error e s'⟩

/-- Only the last part of a sequence returns. -/
theorem follows_bind (hdev : Develops exec I le) {p : Proc C R ε β} {k : β → Proc C R ε α} {s : σ}
    (hk : ∀ s', le s s' → ∀ b, (k b).Follows exec I le post s') :
    (p.bind k).Follows exec I le post s := by
  induction p generalizing s with
  | done r =>
    cases r with
    | ok b => exact hk s (hdev.refl s) b
    | error e => exact follows_error e s
  | await c next ih =>
    intro s' hle hI
    constructor
    · intro a s'' hexec
      refine ih _ fun t hlt => hk t ?_
      exact hdev.trans _ _ _ hle (hdev.trans _ _ _ (hdev.step c s' a s'' hI hexec).2 hlt)
    · intro e
      exact ih _ fun t hlt => hk t (hdev.trans _ _ _ hle hlt)

end Proc

/-! ## Configurations -/

namespace Config

/-- The call with identity `i`. -/
def thread (cfg : Config K C R ε σ α) (i : ℕ) : Option (Thread K C R ε α) :=
  Table.get Thread.id cfg.threads i

/-- What was called under the identity `i`. -/
def called (cfg : Config K C R ε σ α) (i : ℕ) : Option K := (cfg.thread i).map Thread.call

/-- Call `i` has taken its first step and has not ended. -/
def inProgress (cfg : Config K C R ε σ α) (i : ℕ) : Bool :=
  match cfg.thread i with
  | some th => th.begun && !th.proc.isDone
  | none => false

/-- Call `i` was made and has returned or thrown. -/
def ended (cfg : Config K C R ε σ α) (i : ℕ) : Bool :=
  match cfg.thread i with
  | some th => th.proc.isDone
  | none => false

/-- Call `i` was made and has not ended. -/
def running (cfg : Config K C R ε σ α) (i : ℕ) : Bool :=
  match cfg.thread i with
  | some th => !th.proc.isDone
  | none => false

/-- Make the call `k` under the identity `i`. -/
def spawn (cfg : Config K C R ε σ α) (i : ℕ) (k : K) (p : Proc C R ε α) :
    Config K C R ε σ α :=
  { cfg with threads := Table.put Thread.id ⟨i, k, false, p⟩ cfg.threads }

/-- The call `th`, waiting for `c`, goes on with the outcome `r`. -/
def resume (cfg : Config K C R ε σ α) (th : Thread K C R ε α) {c : C}
    (next : Except ε (R c) → Proc C R ε α) (r : Except ε (R c × σ)) :
    Config K C R ε σ α where
  state := after r cfg.state
  threads := Table.put Thread.id { th with begun := true, proc := next (reply r) } cfg.threads

@[simp] theorem spawn_state (cfg : Config K C R ε σ α) (i : ℕ) (k : K) (p : Proc C R ε α) :
    (cfg.spawn i k p).state = cfg.state := rfl

@[simp] theorem resume_state (cfg : Config K C R ε σ α) (th : Thread K C R ε α) {c : C}
    (next : Except ε (R c) → Proc C R ε α) (r : Except ε (R c × σ)) :
    (cfg.resume th next r).state = after r cfg.state := rfl

theorem thread_spawn (cfg : Config K C R ε σ α) (i j : ℕ) (k : K) (p : Proc C R ε α) :
    (cfg.spawn i k p).thread j = if i = j then some ⟨i, k, false, p⟩ else cfg.thread j :=
  Table.get_put ..

/-- A call of the new configuration is the new one or an old one. -/
theorem thread_spawn_cases {cfg : Config K C R ε σ α} {i j : ℕ} {k : K} {p : Proc C R ε α}
    {th : Thread K C R ε α} (h : (cfg.spawn i k p).thread j = some th) :
    (j = i ∧ th = ⟨i, k, false, p⟩) ∨ cfg.thread j = some th := by
  rw [thread_spawn] at h
  split at h
  · rename_i hij
    exact Or.inl ⟨hij.symm, (Option.some.inj h).symm⟩
  · exact Or.inr h

theorem thread_resume (cfg : Config K C R ε σ α) (th : Thread K C R ε α) {c : C}
    (next : Except ε (R c) → Proc C R ε α) (r : Except ε (R c × σ)) (j : ℕ) :
    (cfg.resume th next r).thread j =
      if th.id = j then some { th with begun := true, proc := next (reply r) }
      else cfg.thread j :=
  Table.get_put ..

theorem id_of_thread {cfg : Config K C R ε σ α} {i : ℕ} {th : Thread K C R ε α}
    (h : cfg.thread i = some th) : th.id = i :=
  Table.key_of_get _ h

/-- A step of one call does not touch another. -/
theorem thread_resume_ne {cfg : Config K C R ε σ α} {i j : ℕ} {th : Thread K C R ε α}
    (h : cfg.thread i = some th) (hj : j ≠ i) {c : C}
    (next : Except ε (R c) → Proc C R ε α) (r : Except ε (R c × σ)) :
    (cfg.resume th next r).thread j = cfg.thread j := by
  rw [thread_resume, if_neg]
  rw [id_of_thread h]
  exact hj.symm

/-- A call of the new configuration is the one that went on or an old one. -/
theorem thread_resume_cases {cfg : Config K C R ε σ α} {i j : ℕ} {th th' : Thread K C R ε α}
    (h : cfg.thread i = some th) {c : C} {next : Except ε (R c) → Proc C R ε α}
    {r : Except ε (R c × σ)} (h' : (cfg.resume th next r).thread j = some th') :
    (j = i ∧ th' = { th with begun := true, proc := next (reply r) }) ∨
    cfg.thread j = some th' := by
  by_cases hj : j = i
  · subst hj
    rw [thread_resume, if_pos (id_of_thread h)] at h'
    exact Or.inl ⟨rfl, (Option.some.inj h').symm⟩
  · rw [thread_resume_ne h hj] at h'
    exact Or.inr h'

theorem called_resume {cfg : Config K C R ε σ α} {i : ℕ} {th : Thread K C R ε α}
    (h : cfg.thread i = some th) {c : C} (next : Except ε (R c) → Proc C R ε α)
    (r : Except ε (R c × σ)) (j : ℕ) : (cfg.resume th next r).called j = cfg.called j := by
  unfold called
  by_cases hj : j = i
  · subst hj
    rw [thread_resume, if_pos (id_of_thread h), h]
    rfl
  · rw [thread_resume_ne h hj]

theorem called_spawn (cfg : Config K C R ε σ α) (i j : ℕ) (k : K) (p : Proc C R ε α) :
    (cfg.spawn i k p).called j = if i = j then some k else cfg.called j := by
  unfold called
  rw [thread_spawn]
  split <;> rfl

theorem called_of_thread {cfg : Config K C R ε σ α} {i : ℕ} {th : Thread K C R ε α}
    (h : cfg.thread i = some th) : cfg.called i = some th.call := by
  rw [called, h]
  rfl

theorem inProgress_resume_ne {cfg : Config K C R ε σ α} {i j : ℕ} {th : Thread K C R ε α}
    (h : cfg.thread i = some th) (hj : j ≠ i) {c : C}
    (next : Except ε (R c) → Proc C R ε α) (r : Except ε (R c × σ)) :
    (cfg.resume th next r).inProgress j = cfg.inProgress j := by
  unfold inProgress
  rw [thread_resume_ne h hj]

theorem inProgress_resume_self {cfg : Config K C R ε σ α} {i : ℕ} {th : Thread K C R ε α}
    (h : cfg.thread i = some th) {c : C}
    (next : Except ε (R c) → Proc C R ε α) (r : Except ε (R c × σ)) :
    (cfg.resume th next r).inProgress i = !(next (reply r)).isDone := by
  unfold inProgress
  rw [thread_resume, if_pos (id_of_thread h)]
  simp

theorem inProgress_spawn {cfg : Config K C R ε σ α} {i : ℕ} (h : cfg.thread i = none)
    (k : K) (p : Proc C R ε α) (j : ℕ) :
    (cfg.spawn i k p).inProgress j = cfg.inProgress j := by
  unfold inProgress
  rw [thread_spawn]
  by_cases hj : i = j
  · subst hj
    rw [if_pos rfl, h]
    rfl
  · rw [if_neg hj]

theorem ended_resume_ne {cfg : Config K C R ε σ α} {i j : ℕ} {th : Thread K C R ε α}
    (h : cfg.thread i = some th) (hj : j ≠ i) {c : C}
    (next : Except ε (R c) → Proc C R ε α) (r : Except ε (R c × σ)) :
    (cfg.resume th next r).ended j = cfg.ended j := by
  unfold ended
  rw [thread_resume_ne h hj]

theorem ended_resume_self {cfg : Config K C R ε σ α} {i : ℕ} {th : Thread K C R ε α}
    (h : cfg.thread i = some th) {c : C}
    (next : Except ε (R c) → Proc C R ε α) (r : Except ε (R c × σ)) :
    (cfg.resume th next r).ended i = (next (reply r)).isDone := by
  unfold ended
  rw [thread_resume, if_pos (id_of_thread h)]

/-- A call that waits for a command has not ended. -/
theorem ended_of_await {cfg : Config K C R ε σ α} {i : ℕ} {th : Thread K C R ε α}
    (h : cfg.thread i = some th) {c : C} {next : Except ε (R c) → Proc C R ε α}
    (hproc : th.proc = .await c next) : cfg.ended i = false := by
  unfold ended
  rw [h]
  simp only [hproc]
  rfl

/-- A call that has ended stays so, whatever another one does. -/
theorem ended_resume {cfg : Config K C R ε σ α} {i j : ℕ} {th : Thread K C R ε α}
    (h : cfg.thread i = some th) {c : C} {next : Except ε (R c) → Proc C R ε α}
    (hproc : th.proc = .await c next) (r : Except ε (R c × σ)) (hj : cfg.ended j = true) :
    (cfg.resume th next r).ended j = true := by
  have hne : j ≠ i := by
    rintro rfl
    rw [ended_of_await h hproc] at hj
    cases hj
  rw [ended_resume_ne h hne, hj]

theorem ended_spawn {cfg : Config K C R ε σ α} {i j : ℕ} (h : cfg.thread i = none) (k : K)
    (p : Proc C R ε α) (hj : cfg.ended j = true) : (cfg.spawn i k p).ended j = true := by
  have hne : i ≠ j := by
    rintro rfl
    rw [ended, h] at hj
    cases hj
  unfold ended at hj ⊢
  rwa [thread_spawn, if_neg hne]

theorem ended_spawn_ne (cfg : Config K C R ε σ α) {i j : ℕ} (hj : j ≠ i) (k : K)
    (p : Proc C R ε α) : (cfg.spawn i k p).ended j = cfg.ended j := by
  unfold ended
  rw [thread_spawn, if_neg hj.symm]

end Config

/-! ## Events -/

namespace System

variable (S : System K C R ε σ α)

/-- One event, when it is possible. -/
def step (cfg : Config K C R ε σ α) : Event K ε → Option (Config K C R ε σ α)
  | .call i k =>
    match cfg.thread i with
    | some _ => none
    | none => some (cfg.spawn i k (S.prog i k))
  | .step i fault =>
    match cfg.thread i with
    | none => none
    | some th =>
      match th.proc with
      | .done _ => none
      | .await c next =>
        if S.ready c cfg.state && (fault.isNone || S.mayFail c) then
          some (cfg.resume th next (outcome fault (S.exec c cfg.state)))
        else none

/-- A whole schedule. -/
def run (cfg : Config K C R ε σ α) : List (Event K ε) → Option (Config K C R ε σ α)
  | [] => some cfg
  | e :: es => (S.step cfg e).bind fun cfg' => run cfg' es

/-- An event that is not possible is skipped. -/
def advance (cfg : Config K C R ε σ α) (e : Event K ε) : Config K C R ε σ α :=
  (S.step cfg e).getD cfg

/-- A schedule of which the possible events happen. -/
def play (cfg : Config K C R ε σ α) (es : List (Event K ε)) : Config K C R ε σ α :=
  es.foldl S.advance cfg

/-- The step passes the check; an event that makes a call always does. -/
def passes (check : Config K C R ε σ α → Thread K C R ε α → C → Bool → Bool)
    (cfg : Config K C R ε σ α) : Event K ε → Bool
  | .call _ _ => true
  | .step i fault =>
    match cfg.thread i with
    | none => true
    | some th =>
      match th.proc with
      | .done _ => true
      | .await c _ => check cfg th c (failed (outcome fault (S.exec c cfg.state)))

/-- A whole schedule all of whose steps pass the check. -/
def runChecked (check : Config K C R ε σ α → Thread K C R ε α → C → Bool → Bool)
    (cfg : Config K C R ε σ α) : List (Event K ε) → Option (Config K C R ε σ α)
  | [] => some cfg
  | e :: es =>
    if S.passes check cfg e then (S.step cfg e).bind fun cfg' => runChecked check cfg' es
    else none

variable {S}

theorem play_cons (cfg : Config K C R ε σ α) (e : Event K ε) (es : List (Event K ε)) :
    S.play cfg (e :: es) = S.play (S.advance cfg e) es := rfl

theorem advance_call {cfg : Config K C R ε σ α} {i : ℕ} (h : cfg.thread i = none) (k : K) :
    S.advance cfg (.call i k) = cfg.spawn i k (S.prog i k) := by
  rw [advance, step, h]
  rfl

theorem advance_call_taken {cfg : Config K C R ε σ α} {i : ℕ} {th : Thread K C R ε α}
    (h : cfg.thread i = some th) (k : K) : S.advance cfg (.call i k) = cfg := by
  rw [advance, step, h]
  rfl

theorem advance_none {cfg : Config K C R ε σ α} {i : ℕ} (h : cfg.thread i = none)
    (fault : Option ε) : S.advance cfg (.step i fault) = cfg := by
  rw [advance, step, h]
  rfl

theorem advance_done {cfg : Config K C R ε σ α} {i : ℕ} {th : Thread K C R ε α}
    (h : cfg.thread i = some th) (hdone : th.proc.isDone = true) (fault : Option ε) :
    S.advance cfg (.step i fault) = cfg := by
  cases hproc : th.proc with
  | done r =>
    rw [advance, step, h]
    simp only [hproc]
    rfl
  | await c next =>
    rw [hproc] at hdone
    cases hdone

theorem advance_await {cfg : Config K C R ε σ α} {i : ℕ} {th : Thread K C R ε α}
    (h : cfg.thread i = some th) {c : C} {next : Except ε (R c) → Proc C R ε α}
    (hproc : th.proc = .await c next) (fault : Option ε) :
    S.advance cfg (.step i fault) =
      if S.ready c cfg.state && (fault.isNone || S.mayFail c) then
        cfg.resume th next (outcome fault (S.exec c cfg.state))
      else cfg := by
  rw [advance, step, h]
  simp only [hproc]
  split <;> rfl

/-- Steps make no calls. -/
theorem called_advance_step (cfg : Config K C R ε σ α) (i : ℕ) (fault : Option ε) (j : ℕ) :
    (S.advance cfg (.step i fault)).called j = cfg.called j := by
  cases hth : cfg.thread i with
  | none => rw [advance_none hth]
  | some th =>
    cases hproc : th.proc with
    | done r => rw [advance_done hth (congrArg Proc.isDone hproc)]
    | await c next =>
      rw [advance_await hth hproc]
      split
      · exact Config.called_resume hth next _ j
      · rfl

/-- Every call was made by an event of the schedule. -/
theorem mem_of_called_play {cfg : Config K C R ε σ α} {es : List (Event K ε)} {i : ℕ} {k : K}
    (h : (S.play cfg es).called i = some k) : cfg.called i = some k ∨ .call i k ∈ es := by
  induction es generalizing cfg with
  | nil => exact Or.inl h
  | cons e es ih =>
    rcases ih h with hold | hmem
    · cases e with
      | step j fault =>
        rw [called_advance_step] at hold
        exact Or.inl hold
      | call j k' =>
        cases hth : cfg.thread j with
        | some th =>
          rw [advance_call_taken hth] at hold
          exact Or.inl hold
        | none =>
          rw [advance_call hth, Config.called_spawn] at hold
          split at hold
          · rename_i hij
            cases hold
            subst hij
            exact Or.inr (List.mem_cons_self ..)
          · exact Or.inl hold
    · exact Or.inr (List.mem_cons_of_mem _ hmem)

theorem runChecked_true (cfg : Config K C R ε σ α) (es : List (Event K ε)) :
    S.runChecked (fun _ _ _ _ => true) cfg es = S.run cfg es := by
  induction es generalizing cfg with
  | nil => rfl
  | cons e es ih =>
    have hpasses : S.passes (fun _ _ _ _ => true) cfg e = true := by
      cases e with
      | call i k => rfl
      | step i fault =>
        rw [passes]
        split
        · rfl
        · split <;> rfl
    rw [runChecked, if_pos hpasses, run]
    exact congrArg _ (funext ih)

/-- Everything an event can do: make a fresh call, or answer the command that
an unfinished call is waiting for. -/
theorem step_cases {cfg cfg' : Config K C R ε σ α} {e : Event K ε}
    (h : S.step cfg e = some cfg') :
    (∃ i k, e = .call i k ∧ cfg.thread i = none ∧ cfg' = cfg.spawn i k (S.prog i k)) ∨
    (∃ i fault th c next, e = .step i fault ∧ cfg.thread i = some th ∧
      th.proc = .await c next ∧ S.ready c cfg.state = true ∧
      (fault = none ∨ S.mayFail c = true) ∧
      cfg' = cfg.resume th next (outcome fault (S.exec c cfg.state))) := by
  cases e with
  | call i k =>
    rw [step] at h
    split at h
    · cases h
    · rename_i hfresh
      cases h
      exact Or.inl ⟨i, k, rfl, hfresh, rfl⟩
  | step i fault =>
    rw [step] at h
    split at h
    · cases h
    · rename_i th hth
      split at h
      · cases h
      · rename_i c next hproc
        split at h
        · rename_i hguard
          cases h
          rw [Bool.and_eq_true, Bool.or_eq_true, Option.isNone_iff_eq_none] at hguard
          exact Or.inr ⟨i, fault, th, c, next, rfl, hth, hproc, hguard.1, hguard.2, rfl⟩
        · cases h

end System

/-! ## Reachable configurations -/

/-- What a schedule and its faults are allowed to do. -/
structure Discipline (K C : Type) (R : C → Type) (ε σ α : Type) where
  /-- Call `k` may be made under the identity `i`. -/
  onCall : Config K C R ε σ α → ℕ → K → Prop
  /-- The call may take this step, which fails or not. -/
  onStep : Config K C R ε σ α → Thread K C R ε α → C → Bool → Prop

/-- Any schedule, any faults. -/
def Discipline.free : Discipline K C R ε σ α where
  onCall _ _ _ := True
  onStep _ _ _ _ := True

/-- The configurations reached from `cfg₀` when every event obeys `D`. -/
inductive Reach (S : System K C R ε σ α) (D : Discipline K C R ε σ α)
    (cfg₀ : Config K C R ε σ α) : Config K C R ε σ α → Prop
  | refl : Reach S D cfg₀ cfg₀
  | call {cfg : Config K C R ε σ α} (i : ℕ) (k : K) :
      Reach S D cfg₀ cfg → cfg.thread i = none → D.onCall cfg i k →
      Reach S D cfg₀ (cfg.spawn i k (S.prog i k))
  | step {cfg : Config K C R ε σ α} (i : ℕ) (fault : Option ε) (th : Thread K C R ε α) (c : C)
      (next : Except ε (R c) → Proc C R ε α) :
      Reach S D cfg₀ cfg → cfg.thread i = some th → th.proc = .await c next →
      S.ready c cfg.state = true → (fault = none ∨ S.mayFail c = true) →
      D.onStep cfg th c (failed (outcome fault (S.exec c cfg.state))) →
      Reach S D cfg₀ (cfg.resume th next (outcome fault (S.exec c cfg.state)))

namespace Reach

variable {S : System K C R ε σ α} {D : Discipline K C R ε σ α} {cfg₀ cfg : Config K C R ε σ α}

theorem trans {cfg₁ : Config K C R ε σ α} (h : Reach S D cfg₀ cfg₁) (h' : Reach S D cfg₁ cfg) :
    Reach S D cfg₀ cfg := by
  induction h' with
  | refl => exact h
  | call i k _ hfresh hD ih => exact .call i k ih hfresh hD
  | step i fault th c next _ hth hproc hready hfault hD ih =>
    exact .step i fault th c next ih hth hproc hready hfault hD

/-- Whatever it obeys, it is a schedule. -/
theorem toFree (h : Reach S D cfg₀ cfg) : Reach S .free cfg₀ cfg := by
  induction h with
  | refl => exact .refl
  | call i k _ hfresh _ ih => exact .call i k ih hfresh trivial
  | step i fault th c next _ hth hproc hready hfault _ ih =>
    exact .step i fault th c next ih hth hproc hready hfault trivial

/-- **Invariant rule.** -/
theorem invariant {I : Config K C R ε σ α → Prop} (h0 : I cfg₀)
    (hcall : ∀ cfg i k, I cfg → cfg.thread i = none → D.onCall cfg i k →
      I (cfg.spawn i k (S.prog i k)))
    (hstep : ∀ cfg i fault th c next, I cfg → cfg.thread i = some th →
      th.proc = .await c next → S.ready c cfg.state = true →
      (fault = none ∨ S.mayFail c = true) →
      D.onStep cfg th c (failed (outcome fault (S.exec c cfg.state))) →
      I (cfg.resume th next (outcome fault (S.exec c cfg.state))))
    (h : Reach S D cfg₀ cfg) : I cfg := by
  induction h with
  | refl => exact h0
  | call i k _ hfresh hD ih => exact hcall _ i k ih hfresh hD
  | step i fault th c next _ hth hproc hready hfault hD ih =>
    exact hstep _ i fault th c next ih hth hproc hready hfault hD

/-- **Invariant rule, await by await.** A step need only be considered at a
command that satisfies the `Q` of its call; that the calls come to no other
command while their replies are within `G` is a matter of their programs, and
of the calls that are under way at the start. -/
theorem invariant_always_from {I : Config K C R ε σ α → Prop} {G : K → (c : C) → R c → Prop}
    {Q : ℕ → K → (c : C) → (Except ε (R c) → Proc C R ε α) → Prop}
    (h0 : I cfg₀)
    (hall₀ : ∀ i th, cfg₀.thread i = some th → th.proc.Always (G th.call) (Q i th.call))
    (hprog : ∀ i k, (S.prog i k).Always (G k) (Q i k))
    (hcall : ∀ cfg i k, I cfg → cfg.thread i = none → D.onCall cfg i k →
      I (cfg.spawn i k (S.prog i k)))
    (hstep : ∀ cfg i fault th c next, I cfg → cfg.thread i = some th →
      th.proc = .await c next → Q i th.call c next → (fault = none ∨ S.mayFail c = true) →
      D.onStep cfg th c (failed (outcome fault (S.exec c cfg.state))) →
      I (cfg.resume th next (outcome fault (S.exec c cfg.state))) ∧
      ∀ a s', outcome fault (S.exec c cfg.state) = .ok (a, s') → G th.call c a)
    (h : Reach S D cfg₀ cfg) :
    I cfg ∧ ∀ i th, cfg.thread i = some th → th.proc.Always (G th.call) (Q i th.call) := by
  refine h.invariant (I := fun cfg => I cfg ∧ ∀ i th, cfg.thread i = some th →
      th.proc.Always (G th.call) (Q i th.call)) ⟨h0, hall₀⟩ ?call ?step
  case call =>
    intro cfg i k ⟨hI, hall⟩ hfresh hD
    refine ⟨hcall cfg i k hI hfresh hD, ?_⟩
    intro j th hth
    rcases Config.thread_spawn_cases hth with ⟨rfl, rfl⟩ | hold
    · exact hprog j k
    · exact hall j th hold
  case step =>
    intro cfg i fault th c next ⟨hI, hall⟩ hth hproc _ hfault hD
    have hself := hall i th hth
    rw [hproc] at hself
    obtain ⟨hhere, hok, herror⟩ := hself.inv
    obtain ⟨hI', hG⟩ := hstep cfg i fault th c next hI hth hproc hhere hfault hD
    refine ⟨hI', ?_⟩
    intro j th' hth'
    rcases Config.thread_resume_cases hth hth' with ⟨rfl, rfl⟩ | hold
    · cases hout : outcome fault (S.exec c cfg.state) with
      | error e => exact herror e
      | ok r =>
        obtain ⟨a, s'⟩ := r
        exact hok a (hG a s' hout)
    · exact hall j th' hold

/-- The same from a configuration without calls. -/
theorem invariant_always_by {I : Config K C R ε σ α → Prop} {G : K → (c : C) → R c → Prop}
    {Q : ℕ → K → (c : C) → (Except ε (R c) → Proc C R ε α) → Prop}
    (h0 : I cfg₀) (hnil : cfg₀.threads = [])
    (hprog : ∀ i k, (S.prog i k).Always (G k) (Q i k))
    (hcall : ∀ cfg i k, I cfg → cfg.thread i = none → D.onCall cfg i k →
      I (cfg.spawn i k (S.prog i k)))
    (hstep : ∀ cfg i fault th c next, I cfg → cfg.thread i = some th →
      th.proc = .await c next → Q i th.call c next → (fault = none ∨ S.mayFail c = true) →
      D.onStep cfg th c (failed (outcome fault (S.exec c cfg.state))) →
      I (cfg.resume th next (outcome fault (S.exec c cfg.state))) ∧
      ∀ a s', outcome fault (S.exec c cfg.state) = .ok (a, s') → G th.call c a)
    (h : Reach S D cfg₀ cfg) :
    I cfg ∧ ∀ i th, cfg.thread i = some th → th.proc.Always (G th.call) (Q i th.call) := by
  refine h.invariant_always_from h0 (fun i th hth => ?_) hprog hcall hstep
  rw [Config.thread, hnil] at hth
  cases hth

/-- The same with one `G` for all calls. -/
theorem invariant_always {I : Config K C R ε σ α → Prop} {G : (c : C) → R c → Prop}
    {Q : ℕ → K → (c : C) → (Except ε (R c) → Proc C R ε α) → Prop}
    (h0 : I cfg₀) (hnil : cfg₀.threads = [])
    (hprog : ∀ i k, (S.prog i k).Always G (Q i k))
    (hcall : ∀ cfg i k, I cfg → cfg.thread i = none → D.onCall cfg i k →
      I (cfg.spawn i k (S.prog i k)))
    (hstep : ∀ cfg i fault th c next, I cfg → cfg.thread i = some th →
      th.proc = .await c next → Q i th.call c next →
      D.onStep cfg th c (failed (outcome fault (S.exec c cfg.state))) →
      I (cfg.resume th next (outcome fault (S.exec c cfg.state))) ∧
      ∀ a s', outcome fault (S.exec c cfg.state) = .ok (a, s') → G c a)
    (h : Reach S D cfg₀ cfg) :
    I cfg ∧ ∀ i th, cfg.thread i = some th → th.proc.Always G (Q i th.call) :=
  invariant_always_by (G := fun _ => G) h0 hnil hprog hcall
    (fun cfg i fault th c next hI hth hproc hQ _ => hstep cfg i fault th c next hI hth hproc hQ) h

/-- **Invariant of the state, await by await.** When every command that a call
comes to keeps `I` and is answered within `G`, provided it satisfies the `Q` of
its call, then `I` holds throughout and every call stays within its `Q`. -/
theorem always {I : σ → Prop} {G : (c : C) → R c → Prop}
    {Q : ℕ → K → (c : C) → (Except ε (R c) → Proc C R ε α) → Prop}
    (h0 : I cfg₀.state) (hnil : cfg₀.threads = [])
    (hprog : ∀ i k, (S.prog i k).Always G (Q i k))
    (hexec : ∀ cfg i th c next a s', cfg.thread i = some th → Q i th.call c next → I cfg.state →
      D.onStep cfg th c false → S.exec c cfg.state = .ok (a, s') → I s' ∧ G c a)
    (h : Reach S D cfg₀ cfg) :
    I cfg.state ∧ ∀ i th, cfg.thread i = some th → th.proc.Always G (Q i th.call) := by
  refine invariant_always (I := fun cfg => I cfg.state) h0 hnil hprog (fun _ _ _ hI _ _ => hI)
    ?_ h
  intro cfg i fault th c next hI hth _ hhere hD
  cases hout : outcome fault (S.exec c cfg.state) with
  | error e => exact ⟨hI, fun a s' hok => by cases hok⟩
  | ok r =>
    obtain ⟨a, s'⟩ := r
    rw [hout] at hD
    have hkeep := hexec cfg i th c next a s' hth hhere hI hD (outcome_eq_ok hout).2
    refine ⟨hkeep.1, ?_⟩
    intro a' s'' hok
    cases hok
    exact hkeep.2

/-- **Following one call.** A call that returns what `post` says while the state
develops within `le` does so in every interleaving. -/
theorem follow {I : σ → Prop} {le : σ → σ → Prop} {post : α → Prop}
    (hdev : Develops S.exec I le) {j : ℕ} {th₀ : Thread K C R ε α} (h0 : I cfg₀.state)
    (hth₀ : cfg₀.thread j = some th₀) (hproc₀ : th₀.proc.Follows S.exec I le post cfg₀.state)
    (h : Reach S D cfg₀ cfg) :
    I cfg.state ∧ ∃ th, cfg.thread j = some th ∧
      th.proc.Follows S.exec I le post cfg.state := by
  refine h.invariant (I := fun cfg => I cfg.state ∧ ∃ th, cfg.thread j = some th ∧
    th.proc.Follows S.exec I le post cfg.state) ⟨h0, th₀, hth₀, hproc₀⟩ ?call ?step
  case call =>
    intro cfg i k ⟨hI, th, hth, hrest⟩ hfresh _
    refine ⟨hI, th, ?_, hrest⟩
    have hne : i ≠ j := by
      rintro rfl
      rw [hfresh] at hth
      cases hth
    rw [Config.thread_spawn, if_neg hne, hth]
  case step =>
    intro cfg i fault th c next ⟨hI, thj, hthj, hrest⟩ hth hproc _ _ _
    -- whoever takes the step, the state develops
    have hdevel : I (after (outcome fault (S.exec c cfg.state)) cfg.state) ∧
        le cfg.state (after (outcome fault (S.exec c cfg.state)) cfg.state) := by
      cases hout : outcome fault (S.exec c cfg.state) with
      | error e => exact ⟨hI, hdev.refl _⟩
      | ok r => exact hdev.step c _ r.1 r.2 hI (outcome_eq_ok hout).2
    refine ⟨hdevel.1, ?_⟩
    by_cases hji : j = i
    · subst hji
      obtain rfl : th = thj := Option.some.inj (hth.symm.trans hthj)
      rw [hproc] at hrest
      obtain ⟨hok, herror⟩ := hrest cfg.state (hdev.refl _) hI
      refine ⟨_, by rw [Config.thread_resume, if_pos (Config.id_of_thread hth)], ?_⟩
      rw [Config.resume_state]
      cases hout : outcome fault (S.exec c cfg.state) with
      | error e => exact herror e
      | ok r => exact hok r.1 r.2 (outcome_eq_ok hout).2
    · refine ⟨thj, by rw [Config.thread_resume_ne hth hji, hthj], ?_⟩
      exact hrest.later hdev hdevel.2

/-- A step answers a command at which the call is, within its `Q`. -/
theorem step_always {G : (c : C) → R c → Prop}
    {Q : (c : C) → (Except ε (R c) → Proc C R ε α) → Prop} {cfg' : Config K C R ε σ α} {i : ℕ}
    {k : K} {fault : Option ε}
    (hall : ∀ th, cfg.thread i = some th → th.call = k → th.proc.Always G Q)
    (hcalled : cfg.called i = some k) (hstep : S.step cfg (.step i fault) = some cfg') :
    ∃ c next, Q c next ∧ cfg'.state = after (outcome fault (S.exec c cfg.state)) cfg.state ∧
      (cfg'.thread i).map Thread.proc =
        some (next (reply (outcome fault (S.exec c cfg.state)))) := by
  rcases System.step_cases hstep with ⟨_, _, hev, _, _⟩ |
    ⟨j, f, th, c, next, hev, hth, hproc, _, _, rfl⟩
  · cases hev
  · cases hev
    have hcall := Config.called_of_thread hth
    rw [hcalled] at hcall
    have halways := hall th hth (Option.some.inj hcall).symm
    rw [hproc] at halways
    refine ⟨c, next, halways.inv.1, rfl, ?_⟩
    rw [Config.thread_resume, if_pos (Config.id_of_thread hth)]
    rfl

/-- An evaluated schedule reaches its configuration, when the check implies the
discipline. -/
theorem of_runChecked {es : List (Event K ε)} {cfg' : Config K C R ε σ α}
    {check : Config K C R ε σ α → Thread K C R ε α → C → Bool → Bool}
    (h : Reach S D cfg₀ cfg)
    (hcall : ∀ i k, Event.call i k ∈ es → ∀ cfg, D.onCall cfg i k)
    (hcheck : ∀ cfg th c b, check cfg th c b = true → D.onStep cfg th c b)
    (hrun : S.runChecked check cfg es = some cfg') : Reach S D cfg₀ cfg' := by
  induction es generalizing cfg with
  | nil =>
    cases hrun
    exact h
  | cons e es ih =>
    rw [System.runChecked] at hrun
    split at hrun
    · rename_i hpasses
      obtain ⟨cfg₁, hone, hrest⟩ := Option.bind_eq_some_iff.mp hrun
      refine ih ?_ (fun i k hmem => hcall i k (List.mem_cons_of_mem _ hmem)) hrest
      rcases System.step_cases hone with
        ⟨i, k, rfl, hfresh, rfl⟩ | ⟨i, fault, th, c, next, rfl, hth, hproc, hready, hf, rfl⟩
      · exact .call i k h hfresh (hcall i k (List.mem_cons_self ..) cfg)
      · refine .step i fault th c next h hth hproc hready hf (hcheck _ _ _ _ ?_)
        simpa only [System.passes, hth, hproc] using hpasses
    · cases hrun

/-- An evaluated schedule reaches its configuration, when the discipline
constrains its calls only. -/
theorem of_run {es : List (Event K ε)} {cfg' : Config K C R ε σ α}
    (h : Reach S D cfg₀ cfg)
    (hcall : ∀ i k, Event.call i k ∈ es → ∀ cfg, D.onCall cfg i k)
    (hstep : ∀ cfg th c b, D.onStep cfg th c b) (hrun : S.run cfg es = some cfg') :
    Reach S D cfg₀ cfg' := by
  rw [← System.runChecked_true] at hrun
  exact h.of_runChecked hcall (fun cfg th c b _ => hstep cfg th c b) hrun

/-- What a schedule plays is reachable. -/
theorem play (es : List (Event K ε)) (h : Reach S .free cfg₀ cfg) :
    Reach S .free cfg₀ (S.play cfg es) := by
  induction es generalizing cfg with
  | nil => exact h
  | cons e es ih =>
    refine ih ?_
    cases hstep : S.step cfg e with
    | none =>
      rw [System.advance, hstep]
      exact h
    | some cfg' =>
      rw [System.advance, hstep]
      rcases System.step_cases hstep with
        ⟨i, k, rfl, hfresh, rfl⟩ | ⟨i, fault, th, c, next, rfl, hth, hproc, hready, hf, rfl⟩
      · exact .call i k h hfresh trivial
      · exact .step i fault th c next h hth hproc hready hf trivial

/-- **A call alone is an interleaving.** A call whose commands are always ready
and allowed can be run to its end, as `Proc.run` does. -/
theorem run_to_end {i : ℕ} {th : Thread K C R ε α} {P : C → Prop}
    (h : Reach S D cfg₀ cfg) (hth : cfg.thread i = some th) (hp : th.proc.Issues P)
    (hready : ∀ c s, S.ready c s = true)
    (hD : ∀ cfg' th' c b, th'.call = th.call → P c → D.onStep cfg' th' c b) :
    ∃ cfg' th', Reach S D cfg₀ cfg' ∧ cfg'.thread i = some th' ∧ th'.call = th.call ∧
      th'.proc = .done (th.proc.run S.exec Proc.noFault cfg.state).1 ∧
      cfg'.state = (th.proc.run S.exec Proc.noFault cfg.state).2 := by
  obtain ⟨j, k, b, p⟩ := th
  induction p generalizing cfg b with
  | done r => exact ⟨cfg, _, h, hth, rfl, rfl, rfl⟩
  | await c next ih =>
    have hnext := h.step i none _ c next hth rfl (hready _ _) (Or.inl rfl)
      (hD _ _ _ _ rfl hp.1)
    rw [outcome_none] at hnext
    have hth' := Config.thread_resume cfg ⟨j, k, b, .await c next⟩ next (S.exec c cfg.state) i
    rw [if_pos (Config.id_of_thread hth)] at hth'
    obtain ⟨cfg', th', hreach, hth'', hcall, hdone, hstate⟩ :=
      ih _ hnext _ hth' (hp.2 _) hD
    refine ⟨cfg', th', hreach, hth'', hcall, hdone.trans ?_, hstate.trans ?_⟩
    · simp only [Proc.run, Proc.noFault, outcome_none, Config.resume_state]
      cases S.exec c cfg.state <;> rfl
    · simp only [Proc.run, Proc.noFault, outcome_none, Config.resume_state]
      cases S.exec c cfg.state <;> rfl

end Reach

end Async
