import NexaFx.Lib.Undo
import NexaFx.Model.Fx

/-!
# NexaFx — the steps of a reversal

Any number of `reverseTrade` calls of one trade, beside other trades, with the
adjustments they start carried out at any later time or failing. `reverseTrade`
is an undo behind a flag (`Undo`): the flag is `reversedAt`, the two parts are
the adjustments it does not await (`view`).

`Reversing` is what holds between the row, the calls, what they have started
and the balances, as long as the calls act `inConcert`; `Reversing.step` is its
step lemma.
-/

namespace NexaFx

open Async Decimal

namespace Fx

-- ---------------------------------------------------------------------------
-- A reversal as an undo
-- ---------------------------------------------------------------------------

/-- How far a thread is. -/
def progress (th : Thread FxCall FxCmd FxCmd.Reply Err (Option FxTrade)) : Phase :=
  match th.proc with
  | .done (.ok _) => .returned
  | .done (.error _) => .thrown
  | .await _ _ => if th.begun = true then .running else .idle

/-- How far the call `i` is with the reversal of the trade `id`. -/
def phaseOf (id : ℕ) (cfg : FxConfig) (i : ℕ) : Phase :=
  match cfg.thread i with
  | some th =>
    match th.call with
    | .reverse id' _ => if id' = id then progress th else .idle
    | _ => .idle
  | none => .idle

/-- The adjustments that the call `i` has started for the trade. -/
def reversalBy (id : ℕ) (st : FxDb) (i : ℕ) : Option Started :=
  (st.startedBy i).filter fun s => decide (s.trade = id)

/-- The reversal of a trade as an undo behind a flag. -/
def view (id : ℕ) (cfg : FxConfig) : Undo Side where
  flag := (cfg.state.trade id).any fun row => row.reversedAt.isSome
  phase := phaseOf id cfg
  parts i := (reversalBy id cfg.state i).map fun s side => (s.part side).carried

/-- The logged balance changes made in the name of the trade. -/
def movesOf (id : ℕ) (st : FxDb) : List Move := st.db.moves.filter fun m => decide (m.tx = id)

/-- Identities are new; `madeAt` is the time of the call. No call reads the trade
while another one is on its way, and the save and the two adjustments of a call
turn out alike. -/
def inConcert (id : ℕ) : Discipline FxCall FxCmd FxCmd.Reply Err FxDb (Option FxTrade) where
  onCall cfg i k :=
    (∀ dto, k = .execute dto → cfg.state.trade i = none) ∧
    (∀ id' madeAt, k = .reverse id' madeAt → madeAt = cfg.state.db.now)
  onStep cfg th c failed :=
    (c = .findTrade id → failed = false → ∀ j, phaseOf id cfg j ≠ .running) ∧
    (∀ row s side ok, c = .managerSave row ∨ c = .commit row →
      reversalBy id cfg.state th.id = some s → (s.part side).carried = some ok →
      (failed = true → ok = false) ∧ (c = .commit row → failed = false → ok = true)) ∧
    (∀ call side fails s, c = .runAdjust call side fails →
      reversalBy id cfg.state call = some s → (s.part side).carried = none →
      (∀ side' ok', (s.part side').carried = some ok' →
        ok' = (cfg.state.carryOut s side fails).1) ∧
      (phaseOf id cfg call = .returned → (cfg.state.carryOut s side fails).1 = true) ∧
      (phaseOf id cfg call = .thrown → (cfg.state.carryOut s side fails).1 = false))

-- ---------------------------------------------------------------------------
-- The calls, await by await
-- ---------------------------------------------------------------------------

/-- How far a `reverseTrade` call is, by what it may ask for next. -/
inductive Stage where
  | called
  | reading
  | started
  | saved
  | failed
  deriving DecidableEq

/-- From stage to stage. -/
def stageAfter : Stage → FxCmd → Bool → Option Stage
  | .called, .findTrade _, true => some .reading
  | .called, .findTrade _, false => some .failed
  | .reading, .now, true => some .reading
  | .reading, .startTransaction, true => some .reading
  | .reading, .startAdjusts _, true => some .started
  | .reading, .now, false | .reading, .startTransaction, false
  | .reading, .startAdjusts _, false => some .failed
  | .started, .now, true => some .started
  | .started, .managerSave _, true => some .started
  | .started, .commit _, true => some .saved
  | .started, .now, false | .started, .managerSave _, false
  | .started, .commit _, false => some .failed
  | _, _, _ => none

theorem stageAfter_failed {q q' : Stage} {c : FxCmd} (h : stageAfter q c false = some q') :
    q' = .failed := by
  cases q <;> cases c <;> cases h <;> rfl

/-- A call throws before it has started anything, or when its save fails. -/
def stageEnds {α : Type} : Stage → Except Err α → Prop
  | .reading, .error _ => True
  | .failed, .error _ => True
  | .saved, .ok _ => True
  | _, _ => False

/-- A call starts adjustments in its own name and for its own trade, and writes
no other trade. -/
def Touches (i id : ℕ) : FxCmd → Prop
  | .startAdjusts s => s.call = i ∧ s.trade = id
  | .commit row => row.id = id
  | .runAdjust _ _ _ => False
  | .tick _ => False
  | _ => True

/-- What the replies of a call made at `madeAt` satisfy. -/
def Replies (trade : FxTrade) : FxCall → (c : FxCmd) → c.Reply → Prop
  | _, .findTrade id, found => ∀ row, found = some row → row.id = id ∧
      (id = trade.id → ∃ r, row = { trade with reversedAt := r })
  | .reverse _ madeAt, .now, t => madeAt ≤ t
  | _, .managerSave row, saved => saved.id = row.id ∧ (row.id = trade.id → saved = row)
  | _, _, _ => True

/-- What the reversal of the trade itself asks for. -/
def AsksBack (trade : FxTrade) (windowMinutes i madeAt : ℕ) :
    (c : FxCmd) → (Except Err c.Reply → FxProc (Option FxTrade)) → Prop
  | .findTrade id, next => id = trade.id ∧
      ∀ row, (next (.ok (some row))).isDone = row.reversedAt.isSome
  | .startAdjusts s, _ => s = reversalAdjusts trade i ∧
      (madeAt : ℚ) ≤ trade.executedAt + 60000 * windowMinutes
  | .commit row, _ => ∃ t, row = { trade with reversedAt := some t }
  | _, _ => True

def Asks (trade : FxTrade) (windowMinutes i : ℕ) : FxCall → (c : FxCmd) →
    (Except Err c.Reply → FxProc (Option FxTrade)) → Prop
  | .execute _, c, _ => Touches i i c
  | .reverse id madeAt, c, next => Touches i id c ∧
      (id = trade.id → AsksBack trade windowMinutes i madeAt c next)
  | .adjust call side fails, c, _ => c = .runAdjust call side fails
  | .tick ms, c, _ => c = .tick ms

section Programs

variable {trade : FxTrade} {windowMinutes : ℕ} (i : ℕ)

theorem execute_asks (dto : ExecuteTradeDto) :
    (prog windowMinutes i (.execute dto)).Always (Replies trade (.execute dto))
      (Asks trade windowMinutes i (.execute dto)) := by
  unfold prog executeTrade tradeStart tradeSave
  simp only [Proc.bind_eq, Proc.bind_assoc, Proc.pure_eq, Proc.done_ok_bind]
  refine Proc.always_call_bind trivial fun rate _ => ?_
  refine Proc.always_call_bind trivial fun _ _ => ?_
  refine Proc.always_call_bind ⟨rfl, rfl⟩ fun _ _ => ?_
  refine Proc.always_call_bind trivial fun _ _ => ?_
  refine Proc.always_call_bind trivial fun saved hsaved => ?_
  exact Proc.always_call_bind hsaved.1 fun _ _ => .done _

theorem elapsed_le {t : Time} (h : ¬ (windowMinutes : ℚ) < elapsed trade t) :
    (t : ℚ) ≤ trade.executedAt + 60000 * windowMinutes := by
  unfold elapsed at h
  rw [not_lt, div_le_iff₀ (by norm_num)] at h
  linarith

/-- From the row it found on. -/
theorem reverseFound_asks {id madeAt : ℕ} {row : FxTrade} (hid : row.id = id)
    (hrow : id = trade.id → ∃ r, row = { trade with reversedAt := r })
    (hopen : trade.reversedAt = none) :
    ((reverseFound i windowMinutes row).bind fun saved => Proc.done (.ok (some saved))).Always
      (Replies trade (.reverse id madeAt)) (Asks trade windowMinutes i (.reverse id madeAt)) := by
  unfold reverseFound tradeSave
  simp only [Proc.bind_eq, Proc.bind_assoc, Proc.pure_eq, Proc.done_ok_bind]
  by_cases hreversed : row.reversedAt.isSome = true
  · rw [Proc.rejectWhen_pos hreversed]
    exact .done _
  rw [Proc.rejectWhen_neg hreversed, Proc.done_ok_bind]
  -- an unreversed row of the trade is the trade
  have hthis : id = trade.id → row = trade := by
    intro heq
    obtain ⟨r, rfl⟩ := hrow heq
    cases r with
    | some t => exact absurd rfl hreversed
    | none => rw [← hopen]
  refine Proc.always_call_bind ⟨trivial, fun _ => trivial⟩ fun t ht => ?_
  by_cases hlate : (windowMinutes : ℚ) < elapsed row t
  · rw [Proc.rejectWhen_pos hlate]
    exact .done _
  rw [Proc.rejectWhen_neg hlate, Proc.done_ok_bind]
  refine Proc.always_call_bind ⟨trivial, fun _ => trivial⟩ fun _ _ => ?_
  refine Proc.always_call_bind ⟨⟨rfl, hid⟩, fun heq => ?_⟩ fun _ _ => ?_
  · rw [hthis heq] at hlate ⊢
    have hmade : (madeAt : ℚ) ≤ t := by exact_mod_cast ht
    exact ⟨rfl, hmade.trans (elapsed_le hlate)⟩
  refine Proc.always_call_bind ⟨trivial, fun _ => trivial⟩ fun t' _ => ?_
  refine Proc.always_call_bind ⟨trivial, fun _ => trivial⟩ fun saved hsaved => ?_
  refine Proc.always_call_bind ⟨hsaved.1.trans hid, fun heq => ?_⟩ fun _ _ => .done _
  rw [hthis heq] at hsaved
  exact ⟨t', hsaved.2 rfl⟩

theorem reverse_asks (hopen : trade.reversedAt = none) (id madeAt : ℕ) :
    (prog windowMinutes i (.reverse id madeAt)).Always (Replies trade (.reverse id madeAt))
      (Asks trade windowMinutes i (.reverse id madeAt)) := by
  unfold prog reverseTrade
  simp only [Proc.bind_eq, Proc.bind_assoc, Proc.pure_eq]
  refine Proc.always_call_bind ⟨trivial, fun heq => ⟨heq, fun row => ?_⟩⟩ fun found hfound => ?_
  · simp only [Proc.done_ok_bind, reverseFound, Proc.bind_eq, Proc.bind_assoc]
    cases row.reversedAt with
    | none => rfl
    | some t => rfl
  · cases found with
    | none => exact .done _
    | some row =>
      obtain ⟨hid, hrow⟩ := hfound row rfl
      exact reverseFound_asks i hid hrow hopen

theorem prog_asks (hopen : trade.reversedAt = none) (k : FxCall) :
    (prog windowMinutes i k).Always (Replies trade k) (Asks trade windowMinutes i k) := by
  cases k with
  | execute dto => exact execute_asks i dto
  | reverse id madeAt => exact reverse_asks i hopen id madeAt
  | adjust call side fails => exact Proc.always_call_bind rfl fun _ _ => .done _
  | tick ms => exact Proc.always_call_bind rfl fun _ _ => .done _

/-- The commands of a reversal come in their order. -/
theorem reverse_obeys (windowMinutes id madeAt : ℕ) :
    (prog windowMinutes i (.reverse id madeAt)).Obeys stageAfter stageEnds .called := by
  have hfailed : ∀ e : Err, stageEnds .failed (.error e : Except Err (Option FxTrade)) :=
    fun _ => trivial
  unfold prog reverseTrade
  simp only [Proc.bind_eq, Proc.bind_assoc, Proc.pure_eq]
  refine Proc.obeys_call_bind rfl rfl hfailed fun found => ?_
  cases found with
  | none => trivial
  | some row =>
    simp only [reverseFound, tradeSave, Proc.bind_eq, Proc.bind_assoc, Proc.pure_eq,
      Proc.done_ok_bind]
    refine Proc.obeys_rejectWhen_bind trivial ?_
    refine Proc.obeys_call_bind rfl rfl hfailed fun t => ?_
    refine Proc.obeys_rejectWhen_bind trivial ?_
    refine Proc.obeys_call_bind rfl rfl hfailed fun _ => ?_
    refine Proc.obeys_call_bind rfl rfl hfailed fun _ => ?_
    refine Proc.obeys_call_bind rfl rfl hfailed fun t' => ?_
    refine Proc.obeys_call_bind rfl rfl hfailed fun saved => ?_
    exact Proc.obeys_call_bind rfl rfl hfailed fun _ => trivial

end Programs

-- ---------------------------------------------------------------------------
-- The invariant
-- ---------------------------------------------------------------------------

/-- Where a thread is in its reversal, as far as the state shows it. -/
def stageOf (id : ℕ) (cfg : FxConfig)
    (th : Thread FxCall FxCmd FxCmd.Reply Err (Option FxTrade)) : Stage :=
  if th.begun = true then
    if (reversalBy id cfg.state th.id).isSome then .started else .reading
  else .called

/-- What the adjustments of `s` that went through have moved. -/
def Started.carriedMoves (s : Started) : List Move :=
  [Side.first, Side.second].flatMap fun side =>
    if (s.part side).carried = some true then s.moves side else []

structure Reversing (trade : FxTrade) (windowMinutes : ℕ) (cfg : FxConfig) : Prop where
  stored : ∃ r, cfg.state.trade trade.id = some { trade with reversedAt := r }
  executes : ∀ i dto, cfg.called i = some (.execute dto) → i ≠ trade.id
  made : ∀ i id madeAt, cfg.called i = some (.reverse id madeAt) → madeAt ≤ cfg.state.db.now
  own : ∀ i s, reversalBy trade.id cfg.state i = some s →
    (∃ madeAt, cfg.called i = some (.reverse trade.id madeAt) ∧
      (madeAt : ℚ) ≤ trade.executedAt + 60000 * windowMinutes) ∧
    ∀ side, s.moves side = (reversalAdjusts trade i).moves side
  stages : ∀ i th madeAt c next, cfg.thread i = some th → th.call = .reverse trade.id madeAt →
    th.proc = .await c next → th.proc.Obeys stageAfter stageEnds (stageOf trade.id cfg th)
  undo : (view trade.id cfg).Inv
  moved : ∀ i, ((movesOf trade.id cfg.state).filter fun m => decide (m.call = i)).Perm
    (((reversalBy trade.id cfg.state i).map Started.carriedMoves).getD [])

/-- What a step leaves as it was that has nothing to do with the trade. -/
structure Quiet (id : ℕ) (st st' : FxDb) : Prop where
  trade : st'.trade id = st.trade id
  reversals : ∀ i, reversalBy id st' i = reversalBy id st i
  moves : movesOf id st' = movesOf id st
  now : st.db.now ≤ st'.db.now

theorem Quiet.refl (id : ℕ) (st : FxDb) : Quiet id st st := ⟨rfl, fun _ => rfl, rfl, le_refl _⟩

section Frames

variable {id : ℕ} {st st' : FxDb}

theorem reversalBy_some {i : ℕ} {s : Started} (h : reversalBy id st i = some s) :
    st.startedBy i = some s ∧ s.trade = id ∧ s.call = i := by
  obtain ⟨hs, hid⟩ := Option.filter_eq_some_iff.mp h
  exact ⟨hs, of_decide_eq_true hid, Table.key_of_get _ hs⟩

theorem reversalBy_putStarted (st : FxDb) (s : Started) (i : ℕ) :
    reversalBy id (st.putStarted s) i =
      if s.call = i then (if s.trade = id then some s else none) else reversalBy id st i := by
  unfold reversalBy FxDb.startedBy FxDb.putStarted
  rw [Table.get_put]
  split
  · simp [Option.filter]
  · rfl

/-- Adjustments of another trade. -/
theorem quiet_putStarted {s : Started} (hother : s.trade ≠ id)
    (hnone : reversalBy id st s.call = none) : Quiet id st (st.putStarted s) := by
  refine ⟨rfl, fun i => ?_, rfl, le_refl _⟩
  rw [reversalBy_putStarted, if_neg hother]
  split
  · rename_i heq
    rw [← heq, hnone]
  · rfl

theorem quiet_putTrade {row : FxTrade} (hother : row.id ≠ id) : Quiet id st (st.putTrade row) := by
  refine ⟨?_, fun _ => rfl, rfl, le_refl _⟩
  exact Table.get_put_ne _ hother

/-- Commands that do not touch the trade, its adjustments or the wallets. -/
theorem quiet_exec {c : FxCmd} {a : c.Reply} (hexec : exec c st = .ok (a, st'))
    (hstart : ∀ s, c ≠ .startAdjusts s) (hcommit : ∀ row, c ≠ .commit row)
    (hadjust : ∀ call side fails, c ≠ .runAdjust call side fails) : Quiet id st st' := by
  cases c with
  | startAdjusts s => exact absurd rfl (hstart s)
  | commit row => exact absurd rfl (hcommit row)
  | runAdjust call side fails => exact absurd rfl (hadjust call side fails)
  | getRate base target =>
    rw [exec] at hexec
    split at hexec
    · cases hexec
      exact .refl id st
    · cases hexec
  | managerSave row =>
    rw [exec] at hexec
    split at hexec <;> cases hexec <;> exact .refl id st
  | tick ms =>
    cases hexec
    exact ⟨rfl, fun _ => rfl, rfl, Nat.le_add_right _ _⟩
  | _ =>
    cases hexec
    exact ⟨rfl, fun _ => rfl, rfl, le_refl _⟩

end Frames

section Views

variable {id i : ℕ} {cfg : FxConfig}
  {th : Thread FxCall FxCmd FxCmd.Reply Err (Option FxTrade)} {c : FxCmd}
  {next : Except Err c.Reply → FxProc (Option FxTrade)} {r : Except Err (c.Reply × FxDb)}

theorem phaseOf_resume_ne (hth : cfg.thread i = some th) {j : ℕ} (hj : j ≠ i) :
    phaseOf id (cfg.resume th next r) j = phaseOf id cfg j := by
  unfold phaseOf
  rw [Config.thread_resume_ne hth hj]

theorem phaseOf_of_reverse {madeAt : ℕ} (hth : cfg.thread i = some th)
    (hcall : th.call = .reverse id madeAt) : phaseOf id cfg i = progress th := by
  unfold phaseOf
  simp only [hth, hcall, if_true]

theorem phaseOf_of_other (hth : cfg.thread i = some th)
    (hcall : ∀ madeAt, th.call ≠ .reverse id madeAt) : phaseOf id cfg i = .idle := by
  unfold phaseOf
  rw [hth]
  simp only
  split
  · rename_i id' madeAt heq
    rw [if_neg]
    rintro rfl
    exact hcall madeAt heq
  · rfl

/-- The thread that has taken the step. -/
theorem thread_resume_self (hth : cfg.thread i = some th) :
    (cfg.resume th next r).thread i = some { th with begun := true, proc := next (reply r) } := by
  rw [Config.thread_resume, if_pos (Config.id_of_thread hth)]

/-- A quiet step moves nothing but the phase of the call that takes it. -/
theorem view_resume (hth : cfg.thread i = some th) (hquiet : Quiet id cfg.state (after r cfg.state)) :
    view id (cfg.resume th next r) =
      (view id cfg).setPhase i (phaseOf id (cfg.resume th next r) i) := by
  apply Undo.ext
  · show ((after r cfg.state).trade id).any _ = _
    rw [hquiet.trade]
    rfl
  · funext j
    rw [Undo.phase_setPhase]
    split
    · rename_i heq
      rw [heq]
      rfl
    · rename_i hne
      exact phaseOf_resume_ne hth hne
  · funext j
    show (reversalBy id (after r cfg.state) j).map _ = _
    rw [hquiet.reversals]
    rfl

/-- A quiet step of a call that does not reverse the trade. -/
theorem view_resume_other (hth : cfg.thread i = some th)
    (hcall : ∀ madeAt, th.call ≠ .reverse id madeAt)
    (hquiet : Quiet id cfg.state (after r cfg.state)) :
    view id (cfg.resume th next r) = view id cfg := by
  rw [view_resume hth hquiet, phaseOf_of_other (thread_resume_self hth) hcall]
  exact Undo.setPhase_same (phaseOf_of_other hth hcall)

end Views

section Interleavings

variable {trade : FxTrade} {windowMinutes i : ℕ} {cfg : FxConfig}
  {th : Thread FxCall FxCmd FxCmd.Reply Err (Option FxTrade)} {c : FxCmd}
  {next : Except Err c.Reply → FxProc (Option FxTrade)}

theorem Reversing.spawn (h : Reversing trade windowMinutes cfg) (hfresh : cfg.thread i = none)
    {k : FxCall} (hcall : (inConcert trade.id).onCall cfg i k) :
    Reversing trade windowMinutes (cfg.spawn i k (prog windowMinutes i k)) := by
  have hcalled : ∀ j, j ≠ i → (cfg.spawn i k (prog windowMinutes i k)).called j = cfg.called j :=
    fun j hj => (Config.called_spawn ..).trans (if_neg hj.symm)
  have hself : (cfg.spawn i k (prog windowMinutes i k)).called i = some k :=
    (Config.called_spawn ..).trans (if_pos rfl)
  -- a call that was not made has started nothing
  have hnone : reversalBy trade.id cfg.state i = none := by
    cases hrev : reversalBy trade.id cfg.state i with
    | none => rfl
    | some s =>
      obtain ⟨⟨madeAt, hmade, -⟩, -⟩ := h.own i s hrev
      rw [Config.called, hfresh] at hmade
      cases hmade
  -- and is not on its way
  have hview : view trade.id (cfg.spawn i k (prog windowMinutes i k)) = view trade.id cfg := by
    apply Undo.ext
    · rfl
    · funext j
      show phaseOf trade.id _ j = phaseOf trade.id cfg j
      by_cases hj : j = i
      · subst hj
        unfold phaseOf
        rw [Config.thread_spawn, if_pos rfl, hfresh]
        simp only
        split
        · split <;> rfl
        · rfl
      · unfold phaseOf
        rw [Config.thread_spawn, if_neg (Ne.symm hj)]
    · rfl
  constructor
  case stored => exact h.stored
  case executes =>
    intro j dto hj
    by_cases hji : j = i
    · subst hji
      rw [hself] at hj
      have hunused := hcall.1 dto (Option.some.inj hj)
      obtain ⟨r, hr⟩ := h.stored
      rintro rfl
      rw [hunused] at hr
      cases hr
    · rw [hcalled j hji] at hj
      exact h.executes j dto hj
  case made =>
    intro j id madeAt hj
    by_cases hji : j = i
    · subst hji
      rw [hself] at hj
      exact (hcall.2 id madeAt (Option.some.inj hj)).le
    · rw [hcalled j hji] at hj
      exact h.made j id madeAt hj
  case own =>
    intro j s hs
    have hji : j ≠ i := by
      rintro rfl
      exact absurd (hnone.symm.trans hs) (by simp)
    obtain ⟨⟨madeAt, hmade, htime⟩, hmoves⟩ := h.own j s hs
    exact ⟨⟨madeAt, (hcalled j hji).trans hmade, htime⟩, hmoves⟩
  case stages =>
    intro j th madeAt c next hth hk hproc
    rcases Config.thread_spawn_cases hth with ⟨rfl, rfl⟩ | hold
    · obtain rfl : k = .reverse trade.id madeAt := hk
      exact reverse_obeys j windowMinutes trade.id madeAt
    · exact h.stages j th madeAt c next hold hk hproc
  case undo =>
    rw [hview]
    exact h.undo
  case moved => exact h.moved

/-- What a step has to be checked for. -/
theorem Reversing.resume (h : Reversing trade windowMinutes cfg) (hth : cfg.thread i = some th)
    {r : Except Err (c.Reply × FxDb)}
    (hstored : ∃ t, (after r cfg.state).trade trade.id = some { trade with reversedAt := t })
    (hnow : cfg.state.db.now ≤ (after r cfg.state).db.now)
    (hown : ∀ j s, reversalBy trade.id (after r cfg.state) j = some s →
      (∃ s₀, reversalBy trade.id cfg.state j = some s₀ ∧ ∀ side, s.moves side = s₀.moves side) ∨
      ((∃ madeAt, cfg.called j = some (.reverse trade.id madeAt) ∧
        (madeAt : ℚ) ≤ trade.executedAt + 60000 * windowMinutes) ∧
        s = reversalAdjusts trade j))
    (hstarted : ∀ j, j ≠ i → (reversalBy trade.id (after r cfg.state) j).isSome =
      (reversalBy trade.id cfg.state j).isSome)
    (hstage : ∀ madeAt c' next', th.call = .reverse trade.id madeAt →
      next (reply r) = .await c' next' →
      (next (reply r)).Obeys stageAfter stageEnds
        (if (reversalBy trade.id (after r cfg.state) i).isSome then .started else .reading))
    (hundo : (view trade.id (cfg.resume th next r)).Inv)
    (hmoved : ∀ j, ((movesOf trade.id (after r cfg.state)).filter
        fun m => decide (m.call = j)).Perm
      (((reversalBy trade.id (after r cfg.state) j).map Started.carriedMoves).getD [])) :
    Reversing trade windowMinutes (cfg.resume th next r) := by
  have hcalled := Config.called_resume hth next r
  constructor
  case stored => exact hstored
  case executes =>
    intro j dto hj
    rw [hcalled] at hj
    exact h.executes j dto hj
  case made =>
    intro j id madeAt hj
    rw [hcalled] at hj
    exact (h.made j id madeAt hj).trans hnow
  case own =>
    intro j s hs
    rw [hcalled]
    rcases hown j s hs with ⟨s₀, hs₀, hmoves⟩ | ⟨hmade, rfl⟩
    · obtain ⟨hmade, hmoves₀⟩ := h.own j s₀ hs₀
      exact ⟨hmade, fun side => (hmoves side).trans (hmoves₀ side)⟩
    · exact ⟨hmade, fun _ => rfl⟩
  case stages =>
    intro j th' madeAt c' next' hth' hk hproc
    by_cases hj : j = i
    · subst hj
      rw [thread_resume_self hth] at hth'
      obtain rfl := Option.some.inj hth'
      unfold stageOf
      rw [if_pos rfl, Config.resume_state, Config.id_of_thread hth]
      exact hstage madeAt c' next' hk hproc
    · rw [Config.thread_resume_ne hth hj] at hth'
      have hobeys := h.stages j th' madeAt c' next' hth' hk hproc
      unfold stageOf at hobeys ⊢
      rw [Config.id_of_thread hth'] at hobeys ⊢
      rw [Config.resume_state, hstarted j hj]
      exact hobeys
  case undo => exact hundo
  case moved => exact hmoved

/-- A quiet step, once the undo and the stage of the call are seen to. -/
theorem Reversing.quiet (h : Reversing trade windowMinutes cfg) (hth : cfg.thread i = some th)
    {r : Except Err (c.Reply × FxDb)} (hquiet : Quiet trade.id cfg.state (after r cfg.state))
    (hundo : (view trade.id (cfg.resume th next r)).Inv)
    (hstage : ∀ madeAt c' next', th.call = .reverse trade.id madeAt →
      next (reply r) = .await c' next' →
      (next (reply r)).Obeys stageAfter stageEnds
        (if (reversalBy trade.id cfg.state i).isSome then .started else .reading)) :
    Reversing trade windowMinutes (cfg.resume th next r) := by
  refine h.resume hth ?_ hquiet.now ?_ ?_ ?_ hundo ?_
  · rw [hquiet.trade]
    exact h.stored
  · intro j s hs
    rw [hquiet.reversals] at hs
    exact Or.inl ⟨s, hs, fun _ => rfl⟩
  · intro j _
    rw [hquiet.reversals]
  · rw [hquiet.reversals]
    exact hstage
  · intro j
    rw [hquiet.reversals, hquiet.moves]
    exact h.moved j

/-- A quiet step of a call that does not reverse the trade. -/
theorem Reversing.quiet_other (h : Reversing trade windowMinutes cfg)
    (hth : cfg.thread i = some th) (hother : ∀ madeAt, th.call ≠ .reverse trade.id madeAt)
    {r : Except Err (c.Reply × FxDb)} (hquiet : Quiet trade.id cfg.state (after r cfg.state)) :
    Reversing trade windowMinutes (cfg.resume th next r) := by
  refine h.quiet hth hquiet ?_ fun madeAt _ _ hk => absurd hk (hother madeAt)
  rw [view_resume_other hth hother hquiet]
  exact h.undo

/-! ### The reversal of the trade -/

/-- Where a call that waits for a command is. -/
theorem phaseOf_of_await {madeAt : ℕ} (hth : cfg.thread i = some th)
    (hcall : th.call = .reverse trade.id madeAt) (hproc : th.proc = .await c next) :
    phaseOf trade.id cfg i = if th.begun = true then .running else .idle := by
  rw [phaseOf_of_reverse hth hcall, progress, hproc]

/-- Where a call is after a step. -/
theorem phaseOf_resume_self {madeAt : ℕ} (hth : cfg.thread i = some th)
    (hcall : th.call = .reverse trade.id madeAt) {r : Except Err (c.Reply × FxDb)} :
    phaseOf trade.id (cfg.resume th next r) i =
      match next (reply r) with
      | .done (.ok _) => .returned
      | .done (.error _) => .thrown
      | .await _ _ => .running := by
  rw [phaseOf_of_reverse (thread_resume_self hth) hcall]
  rfl

theorem stageOf_cases (trade : FxTrade) (hth : cfg.thread i = some th) :
    (th.begun = false ∧ stageOf trade.id cfg th = .called) ∨
    (th.begun = true ∧ reversalBy trade.id cfg.state i = none ∧
      stageOf trade.id cfg th = .reading) ∨
    (th.begun = true ∧ ∃ s, reversalBy trade.id cfg.state i = some s ∧
      stageOf trade.id cfg th = .started) := by
  unfold stageOf
  rw [Config.id_of_thread hth]
  cases th.begun with
  | false => exact Or.inl ⟨rfl, rfl⟩
  | true =>
    cases hrev : reversalBy trade.id cfg.state i with
    | none => exact Or.inr (Or.inl ⟨rfl, rfl, rfl⟩)
    | some s => exact Or.inr (Or.inr ⟨rfl, s, rfl, rfl⟩)

theorem parts_view {i : ℕ} {s : Started} (hs : reversalBy trade.id cfg.state i = some s) :
    (view trade.id cfg).parts i = some fun side => (s.part side).carried := by
  show (reversalBy trade.id cfg.state i).map _ = _
  rw [hs]
  rfl

theorem parts_view_none {i : ℕ} (hs : reversalBy trade.id cfg.state i = none) :
    (view trade.id cfg).parts i = none := by
  show (reversalBy trade.id cfg.state i).map _ = _
  rw [hs]
  rfl

/-- A rejected step ends the call. -/
theorem Reversing.rejected (h : Reversing trade windowMinutes cfg) {madeAt : ℕ}
    (hth : cfg.thread i = some th) (hcall : th.call = .reverse trade.id madeAt)
    (hproc : th.proc = .await c next) (hmay : mayFail c = true)
    (hD : (inConcert trade.id).onStep cfg th c true) (e : Err) :
    Reversing trade windowMinutes (cfg.resume th next (.error e)) := by
  have hobeys := h.stages i th madeAt c next hth hcall hproc
  rw [hproc] at hobeys
  obtain ⟨q', hq', hnext⟩ := hobeys.2 e
  have hphase := phaseOf_of_await hth hcall hproc
  -- whatever the stage, the next is that of a failed call
  obtain rfl := stageAfter_failed hq'
  have hthrown : ∃ e', next (.error e) = .done (.error e') := by
    cases hn : next (.error e) with
    | await c' next' =>
      rw [hn] at hnext
      obtain ⟨q'', hq'', -⟩ := hnext.2 .fault
      cases hq''
    | done r =>
      rw [hn] at hnext
      cases r with
      | ok a => cases hnext
      | error e' => exact ⟨e', rfl⟩
  obtain ⟨e', he'⟩ := hthrown
  have hquiet := Quiet.refl trade.id cfg.state
  refine h.quiet hth hquiet ?_ fun _ _ _ _ hawait => ?_
  · rw [view_resume hth hquiet, phaseOf_resume_self hth hcall]
    simp only [reply_error, he']
    rcases stageOf_cases trade hth with ⟨hbegun, -⟩ | ⟨hbegun, hnone, -⟩ |
      ⟨hbegun, s, hs, hstage⟩
    · rw [hbegun] at hphase
      exact h.undo.step (.refuse hphase)
    · rw [hbegun] at hphase
      refine h.undo.step (.throw hphase fun parts side ok hparts => ?_)
      rw [parts_view_none hnone] at hparts
      cases hparts
    · rw [hbegun] at hphase
      refine h.undo.step (.throw hphase fun parts side ok hparts hside => ?_)
      obtain rfl := Option.some.inj ((parts_view hs).symm.trans hparts)
      -- only its save can fail now
      rw [hstage] at hq'
      have hsave : ∃ row, c = .managerSave row ∨ c = .commit row := by
        cases c with
        | managerSave row => exact ⟨row, Or.inl rfl⟩
        | commit row => exact ⟨row, Or.inr rfl⟩
        | now => cases hmay
        | _ => cases hq'
      obtain ⟨row, hrow⟩ := hsave
      have hid := Config.id_of_thread hth
      exact (hD.2.1 row s side ok hrow (by rw [hid]; exact hs) hside).1 rfl
  · rw [reply_error, he'] at hawait
    cases hawait

/-- The read: a reversed row ends the call, any other sets it going. -/
theorem Reversing.found (h : Reversing trade windowMinutes cfg) {madeAt id : ℕ}
    (hth : cfg.thread i = some th) (hcall : th.call = .reverse trade.id madeAt)
    {next : Except Err (Option FxTrade) → FxProc (Option FxTrade)}
    (hproc : th.proc = .await (.findTrade id) next)
    (hasks : AsksBack trade windowMinutes i madeAt (.findTrade id) next)
    (hD : (inConcert trade.id).onStep cfg th (.findTrade id) false) :
    Reversing trade windowMinutes
      (cfg.resume th (c := .findTrade id) next (.ok (cfg.state.trade id, cfg.state))) := by
  obtain ⟨rfl, hfound⟩ := hasks
  obtain ⟨r, hr⟩ := h.stored
  have hobeys := h.stages i th madeAt (.findTrade trade.id) next hth hcall hproc
  rw [hproc] at hobeys
  have hphase := phaseOf_of_await hth hcall hproc
  obtain ⟨q', hq', hnext⟩ := hobeys.1 (cfg.state.trade trade.id)
  -- it is the first step
  obtain ⟨hbegun, hstage⟩ : th.begun = false ∧ stageOf trade.id cfg th = .called := by
    rcases stageOf_cases trade hth with hfirst | ⟨-, -, hstage⟩ | ⟨-, s, -, hstage⟩
    · exact hfirst
    · rw [hstage] at hq'
      cases hq'
    · rw [hstage] at hq'
      cases hq'
  rw [hstage] at hq'
  cases hq'
  have hidle : (view trade.id cfg).phase i = .idle := by
    show phaseOf trade.id cfg i = .idle
    rw [hphase, hbegun]
    rfl
  have hnone : reversalBy trade.id cfg.state i = none := by
    cases hrev : reversalBy trade.id cfg.state i with
    | none => rfl
    | some s =>
      have hparts := h.undo.idle i hidle
      rw [parts_view hrev] at hparts
      cases hparts
  have hquiet := Quiet.refl trade.id cfg.state
  refine h.quiet hth hquiet ?_ fun _ c' next' _ hawait => ?_
  · rw [view_resume hth hquiet, phaseOf_resume_self hth hcall]
    have hdone := hfound { trade with reversedAt := r }
    rw [hr] at hnext
    simp only [reply_ok, hr]
    cases hn : next (.ok (some { trade with reversedAt := r })) with
    | done res =>
      rw [hn] at hnext
      cases res with
      | ok a => cases hnext
      | error e => exact h.undo.step (.refuse hidle)
    | await c' next' =>
      rw [hn] at hdone
      have hopen : r = none := by
        cases r with
        | none => rfl
        | some t => cases hdone
      refine h.undo.step (.read hidle (hD.1 rfl rfl) ?_)
      show (cfg.state.trade trade.id).any _ = false
      rw [hr, hopen]
      rfl
  · rw [hnone]
    exact hnext

/-- Any other quiet step of the reversal. -/
theorem Reversing.onward (h : Reversing trade windowMinutes cfg) {madeAt : ℕ}
    (hth : cfg.thread i = some th) (hcall : th.call = .reverse trade.id madeAt)
    (hproc : th.proc = .await c next) (hfind : ∀ id, c ≠ .findTrade id)
    (hstart : ∀ s, c ≠ .startAdjusts s) (hcommit : ∀ row, c ≠ .commit row) {a : c.Reply}
    {s' : FxDb} (hquiet : Quiet trade.id cfg.state s') :
    Reversing trade windowMinutes (cfg.resume th next (.ok (a, s'))) := by
  have hobeys := h.stages i th madeAt c next hth hcall hproc
  rw [hproc] at hobeys
  have hphase := phaseOf_of_await hth hcall hproc
  obtain ⟨q', hq', hnext⟩ := hobeys.1 a
  have hquiet' : Quiet trade.id cfg.state
      (after (.ok (a, s') : Except Err (c.Reply × FxDb)) cfg.state) := hquiet
  rcases stageOf_cases trade hth with ⟨hbegun, hstage⟩ | ⟨hbegun, hnone, hstage⟩ |
    ⟨hbegun, s, hs, hstage⟩
  · -- the first step is the read
    rw [hstage] at hq'
    cases c with
    | findTrade id => exact absurd rfl (hfind id)
    | _ => cases hq'
  · -- nothing has been started
    obtain rfl : q' = .reading := by
      rw [hstage] at hq'
      cases c with
      | startAdjusts s => exact absurd rfl (hstart s)
      | now | startTransaction => exact (Option.some.inj hq').symm
      | _ => cases hq'
    rw [hbegun, if_pos rfl] at hphase
    refine h.quiet hth hquiet' ?_ fun _ c' next' _ hawait => ?_
    · rw [view_resume hth hquiet', phaseOf_resume_self hth hcall]
      simp only [reply_ok]
      cases hn : next (.ok a) with
      | await c' next' =>
        simp only
        rw [Undo.setPhase_same hphase]
        exact h.undo
      | done res =>
        rw [hn] at hnext
        cases res with
        | ok b => cases hnext
        | error e =>
          refine h.undo.step (.throw hphase fun parts side ok hparts => ?_)
          rw [parts_view_none hnone] at hparts
          cases hparts
    · rw [hnone]
      exact hnext
  · -- the adjustments are under way
    obtain rfl : q' = .started := by
      rw [hstage] at hq'
      cases c with
      | commit row => exact absurd rfl (hcommit row)
      | now | managerSave => exact (Option.some.inj hq').symm
      | _ => cases hq'
    rw [hbegun, if_pos rfl] at hphase
    refine h.quiet hth hquiet' ?_ fun _ c' next' _ hawait => ?_
    · rw [view_resume hth hquiet', phaseOf_resume_self hth hcall]
      simp only [reply_ok]
      cases hn : next (.ok a) with
      | await c' next' =>
        simp only
        rw [Undo.setPhase_same hphase]
        exact h.undo
      | done res =>
        rw [hn] at hnext
        cases res <;> cases hnext
    · rw [hs]
      exact hnext

/-- The two adjustments are started. -/
theorem Reversing.starts (h : Reversing trade windowMinutes cfg) {madeAt : ℕ}
    (hth : cfg.thread i = some th) (hcall : th.call = .reverse trade.id madeAt) {s : Started}
    {next : Except Err Unit → FxProc (Option FxTrade)}
    (hproc : th.proc = .await (.startAdjusts s) next)
    (hasks : AsksBack trade windowMinutes i madeAt (.startAdjusts s) next) :
    Reversing trade windowMinutes
      (cfg.resume th (c := .startAdjusts s) next (.ok ((), cfg.state.putStarted s))) := by
  obtain ⟨rfl, htime⟩ := hasks
  have hobeys := h.stages i th madeAt (.startAdjusts _) next hth hcall hproc
  rw [hproc] at hobeys
  obtain ⟨q', hq', hnext⟩ := hobeys.1 ()
  have hphase := phaseOf_of_await hth hcall hproc
  obtain ⟨hbegun, hnone, hstage⟩ : th.begun = true ∧ reversalBy trade.id cfg.state i = none ∧
      stageOf trade.id cfg th = .reading := by
    rcases stageOf_cases trade hth with ⟨-, hstage⟩ | hreading | ⟨-, s, -, hstage⟩
    · rw [hstage] at hq'
      cases hq'
    · exact hreading
    · rw [hstage] at hq'
      cases hq'
  rw [hstage] at hq'
  cases hq'
  rw [hbegun, if_pos rfl] at hphase
  have hself : reversalBy trade.id (cfg.state.putStarted (reversalAdjusts trade i)) i =
      some (reversalAdjusts trade i) :=
    (reversalBy_putStarted ..).trans ((if_pos rfl).trans (if_pos rfl))
  have hothers : ∀ j, j ≠ i →
      reversalBy trade.id (cfg.state.putStarted (reversalAdjusts trade i)) j =
        reversalBy trade.id cfg.state j :=
    fun j hj => (reversalBy_putStarted ..).trans (if_neg fun heq => hj heq.symm)
  have hawait : ∃ c' next', next (.ok ()) = .await c' next' := by
    cases hn : next (.ok ()) with
    | await c' next' => exact ⟨c', next', rfl⟩
    | done res =>
      rw [hn] at hnext
      cases res <;> cases hnext
  refine h.resume hth h.stored (le_refl _) ?_ ?_ ?_ ?_ ?_
  · intro j s hs
    rw [after_ok] at hs
    by_cases hj : j = i
    · subst hj
      rw [hself] at hs
      have hmine := Config.called_of_thread hth
      rw [hcall] at hmine
      exact Or.inr ⟨⟨madeAt, hmine, htime⟩, (Option.some.inj hs).symm⟩
    · rw [hothers j hj] at hs
      exact Or.inl ⟨s, hs, fun _ => rfl⟩
  · intro j hj
    rw [after_ok, hothers j hj]
  · intro _ _ _ _ _
    rw [after_ok, hself]
    exact hnext
  · have hview : view trade.id (cfg.resume th (c := .startAdjusts (reversalAdjusts trade i)) next
        (.ok ((), cfg.state.putStarted (reversalAdjusts trade i)))) =
        (view trade.id cfg).setParts i fun _ => none := by
      obtain ⟨c', next', hn⟩ := hawait
      apply Undo.ext
      · rfl
      · funext j
        show phaseOf trade.id _ j = phaseOf trade.id cfg j
        by_cases hj : j = i
        · subst hj
          rw [phaseOf_resume_self hth hcall, hphase]
          simp only [reply_ok, hn]
        · exact phaseOf_resume_ne hth hj
      · funext j
        rw [Undo.parts_setParts]
        show (reversalBy trade.id (cfg.state.putStarted _) j).map _ = _
        split
        · rename_i heq
          rw [heq, hself]
          simp only [Option.map_some, Option.some.injEq]
          funext side
          cases side <;> rfl
        · rename_i hj
          rw [hothers j hj]
          rfl
    rw [hview]
    exact h.undo.step (.start hphase (parts_view_none hnone))
  · intro j
    rw [after_ok]
    by_cases hj : j = i
    · subst hj
      have hmoved := h.moved j
      rw [hnone] at hmoved
      rw [hself]
      exact hmoved
    · rw [hothers j hj]
      exact h.moved j

/-- The save: the flag is set and the call returns. -/
theorem Reversing.commits (h : Reversing trade windowMinutes cfg) {madeAt : ℕ}
    (hth : cfg.thread i = some th) (hcall : th.call = .reverse trade.id madeAt) {row : FxTrade}
    {next : Except Err Unit → FxProc (Option FxTrade)}
    (hproc : th.proc = .await (.commit row) next)
    (hasks : AsksBack trade windowMinutes i madeAt (.commit row) next)
    (hD : (inConcert trade.id).onStep cfg th (.commit row) false) :
    Reversing trade windowMinutes
      (cfg.resume th (c := .commit row) next (.ok ((), cfg.state.putTrade row))) := by
  obtain ⟨t, rfl⟩ := hasks
  have hobeys := h.stages i th madeAt (.commit _) next hth hcall hproc
  rw [hproc] at hobeys
  obtain ⟨q', hq', hnext⟩ := hobeys.1 ()
  have hphase := phaseOf_of_await hth hcall hproc
  obtain ⟨hbegun, s, hs, hstage⟩ : th.begun = true ∧
      ∃ s, reversalBy trade.id cfg.state i = some s ∧ stageOf trade.id cfg th = .started := by
    rcases stageOf_cases trade hth with ⟨-, hstage⟩ | ⟨-, -, hstage⟩ | hstarted
    · rw [hstage] at hq'
      cases hq'
    · rw [hstage] at hq'
      cases hq'
    · exact hstarted
  rw [hstage] at hq'
  cases hq'
  rw [hbegun, if_pos rfl] at hphase
  have hstored : (cfg.state.putTrade { trade with reversedAt := some t }).trade trade.id =
      some { trade with reversedAt := some t } :=
    Table.get_put_self FxTrade.id { trade with reversedAt := some t } cfg.state.trades
  have hdone : ∃ a, next (.ok ()) = .done (.ok a) := by
    cases hn : next (.ok ()) with
    | await c' next' =>
      rw [hn] at hnext
      obtain ⟨q'', hq'', -⟩ := hnext.2 .fault
      cases hq''
    | done res =>
      rw [hn] at hnext
      cases res with
      | ok a => exact ⟨a, rfl⟩
      | error e => cases hnext
  obtain ⟨a, ha⟩ := hdone
  refine h.resume hth ⟨some t, hstored⟩ (le_refl _) ?_ (fun _ _ => rfl) ?_ ?_ h.moved
  · exact fun j s hs => Or.inl ⟨s, hs, fun _ => rfl⟩
  · intro _ c' next' _ hawait
    rw [reply_ok, ha] at hawait
    cases hawait
  · have hview : view trade.id (cfg.resume th (c := .commit { trade with reversedAt := some t }) next
        (.ok ((), cfg.state.putTrade { trade with reversedAt := some t }))) =
        { (view trade.id cfg).setPhase i .returned with flag := true } := by
      apply Undo.ext
      · show ((cfg.state.putTrade _).trade trade.id).any _ = true
        rw [hstored]
        rfl
      · funext j
        show phaseOf trade.id _ j = ((view trade.id cfg).setPhase i .returned).phase j
        rw [Undo.phase_setPhase]
        split
        · rename_i heq
          rw [heq, phaseOf_resume_self hth hcall]
          simp only [reply_ok, ha]
        · rename_i hj
          exact phaseOf_resume_ne hth hj
      · rfl
    rw [hview]
    refine h.undo.step (.finish hphase (parts_view hs) fun side ok hside => ?_)
    have hid := Config.id_of_thread hth
    exact (hD.2.1 _ s side ok (Or.inr rfl) (by rw [hid]; exact hs) hside).2 rfl rfl

end Interleavings

/-! ### An adjustment runs -/

section Adjusting

variable {trade : FxTrade} {windowMinutes i : ℕ} {cfg : FxConfig} {st : FxDb}

theorem settle_moves (s : Started) (ok : Bool) (side side' : Side) :
    (s.settle ok side).moves side' = s.moves side' := by
  cases side <;> cases side' <;> rfl

theorem settle_carried (s : Started) (ok : Bool) (side side' : Side) :
    ((s.settle ok side).part side').carried =
      if side' = side then some ok else (s.part side').carried := by
  cases side <;> cases side' <;> rfl

/-- What is moved when one more adjustment has ended. -/
theorem settle_carriedMoves {s : Started} {side : Side} (hopen : (s.part side).carried = none)
    (ok : Bool) :
    (s.carriedMoves ++ if ok = true then s.moves side else []).Perm
      (s.settle ok side).carriedMoves := by
  unfold Started.carriedMoves
  simp only [List.flatMap_cons, List.flatMap_nil, List.append_nil, settle_moves, settle_carried]
  cases side with
  | first =>
    rw [hopen]
    simp only [reduceCtorEq, if_false, if_true, List.nil_append, Option.some.injEq]
    exact List.perm_append_comm
  | second =>
    rw [hopen]
    simp

theorem carryOut_moves (st : FxDb) (s : Started) (side : Side) (fails : Bool) :
    (st.carryOut s side fails).2.moves =
      st.db.moves ++ if (st.carryOut s side fails).1 = true then s.moves side else [] := by
  rcases carryOut_spec st s side fails with ⟨hok, -, -, hadj⟩ | ⟨hok, -, hsame⟩
  · rw [hadj.moves, hok, if_pos rfl]
    rfl
  · rw [hsame, hok]
    simp

theorem call_of_mem_moves {s : Started} {side : Side} {m : Move} (hm : m ∈ s.moves side) :
    m.call = s.call ∧ m.tx = s.trade := by
  unfold Started.moves at hm
  split at hm
  · cases hm
  · obtain rfl := List.mem_singleton.mp hm
    exact ⟨rfl, rfl⟩

theorem filter_moves_all {s : Started} {side : Side} {p : Move → Bool}
    (h : ∀ m, m.call = s.call → m.tx = s.trade → p m = true) :
    (s.moves side).filter p = s.moves side :=
  List.filter_eq_self.mpr fun m hm => h m (call_of_mem_moves hm).1 (call_of_mem_moves hm).2

theorem filter_moves_none {s : Started} {side : Side} {p : Move → Bool}
    (h : ∀ m, m.call = s.call → m.tx = s.trade → p m = false) :
    (s.moves side).filter p = [] := by
  rw [List.filter_eq_nil_iff]
  intro m hm
  rw [h m (call_of_mem_moves hm).1 (call_of_mem_moves hm).2]
  exact Bool.false_ne_true

/-- An adjustment of another trade, or none that is open. -/
theorem quiet_runAdjust {id call : ℕ} {side : Side} {fails : Bool}
    (h : ∀ s, reversalBy id st call = some s → (s.part side).carried.isSome = true) :
    Quiet id st (st.runAdjust call side fails) := by
  rcases runAdjust_cases st call side fails with ⟨s, hs, hnone, heq⟩ | ⟨-, heq⟩
  · have hcall : s.call = call := Table.key_of_get _ hs
    have hother : s.trade ≠ id := by
      intro heq
      have hrev : reversalBy id st call = some s := by
        rw [reversalBy, hs]
        simp [Option.filter, heq]
      have hsome := h s hrev
      rw [hnone] at hsome
      cases hsome
    have hnone' : reversalBy id st s.call = none := by
      rw [hcall, reversalBy, hs]
      simp [Option.filter, hother]
    rw [heq]
    have hput : Quiet id st (st.putStarted (s.settle (st.carryOut s side fails).1 side)) :=
      quiet_putStarted (by cases side <;> exact hother) (by cases side <;> exact hnone')
    refine ⟨hput.trade, hput.reversals, ?_, (carryOut_now ..).ge⟩
    unfold movesOf
    show (st.carryOut s side fails).2.moves.filter _ = _
    rw [carryOut_moves, List.filter_append]
    have hnothing : (if (st.carryOut s side fails).1 = true then s.moves side else []).filter
        (fun m => decide (m.tx = id)) = [] := by
      split
      · exact filter_moves_none fun m _ hm => decide_eq_false (by rw [hm]; exact hother)
      · rfl
    rw [hnothing, List.append_nil]
  · rw [heq]
    exact .refl id st

/-- An open adjustment of the reversal ends. -/
theorem Reversing.adjusts (h : Reversing trade windowMinutes cfg)
    {th : Thread FxCall FxCmd FxCmd.Reply Err (Option FxTrade)} {call : ℕ} {side : Side}
    {fails : Bool} {next : Except Err Unit → FxProc (Option FxTrade)} {s : Started}
    (hth : cfg.thread i = some th) (hother : ∀ madeAt, th.call ≠ .reverse trade.id madeAt)
    (hs : reversalBy trade.id cfg.state call = some s) (hopen : (s.part side).carried = none)
    (hD : (inConcert trade.id).onStep cfg th (.runAdjust call side fails) false) :
    Reversing trade windowMinutes (cfg.resume th (c := .runAdjust call side fails) next
      (.ok ((), cfg.state.runAdjust call side fails))) := by
  obtain ⟨hstarted, htrade, hcall⟩ := reversalBy_some hs
  obtain ⟨halike, hreturned, hthrown⟩ := hD.2.2 call side fails s rfl hs hopen
  have hst := runAdjust_eq fails hstarted hopen
  -- the record of the call, and those of the others
  have hself : reversalBy trade.id (cfg.state.runAdjust call side fails) call =
      some (s.settle (cfg.state.carryOut s side fails).1 side) := by
    rw [hst]
    refine (reversalBy_putStarted ..).trans ?_
    cases side <;> exact (if_pos hcall).trans (if_pos htrade)
  have hothers : ∀ j, j ≠ call → reversalBy trade.id (cfg.state.runAdjust call side fails) j =
      reversalBy trade.id cfg.state j := by
    intro j hj
    rw [hst]
    refine (reversalBy_putStarted ..).trans ?_
    cases side <;> exact if_neg fun heq => hj (heq.symm.trans hcall)
  have hmoves : movesOf trade.id (cfg.state.runAdjust call side fails) =
      movesOf trade.id cfg.state ++
        if (cfg.state.carryOut s side fails).1 = true then s.moves side else [] := by
    rw [hst]
    unfold movesOf
    show (cfg.state.carryOut s side fails).2.moves.filter _ = _
    rw [carryOut_moves, List.filter_append]
    congr 1
    split
    · exact filter_moves_all fun m _ hm => decide_eq_true (hm.trans htrade)
    · rfl
  have hrow : (cfg.state.runAdjust call side fails).trade trade.id =
      cfg.state.trade trade.id := by
    rw [hst]
    rfl
  refine h.resume hth ?_ ?_ ?_ ?_ (fun madeAt _ _ hk => absurd hk (hother madeAt)) ?_ ?_
  · rw [after_ok, hrow]
    exact h.stored
  · rw [after_ok, hst]
    exact (carryOut_now ..).ge
  · intro j s' hs'
    rw [after_ok] at hs'
    by_cases hj : j = call
    · subst hj
      rw [hself] at hs'
      obtain rfl := Option.some.inj hs'
      exact Or.inl ⟨s, hs, settle_moves s _ side⟩
    · rw [hothers j hj] at hs'
      exact Or.inl ⟨s', hs', fun _ => rfl⟩
  · intro j _
    rw [after_ok]
    by_cases hj : j = call
    · subst hj
      rw [hself, hs]
      rfl
    · rw [hothers j hj]
  · have hview : view trade.id (cfg.resume th (c := .runAdjust call side fails) next
        (.ok ((), cfg.state.runAdjust call side fails))) =
        (view trade.id cfg).setParts call (Function.update (fun side => (s.part side).carried) side
          (some (cfg.state.carryOut s side fails).1)) := by
      apply Undo.ext
      · show ((cfg.state.runAdjust call side fails).trade trade.id).any _ = _
        rw [hrow]
        rfl
      · funext j
        show phaseOf trade.id _ j = phaseOf trade.id cfg j
        by_cases hj : j = i
        · subst hj
          rw [phaseOf_of_other (thread_resume_self hth) hother, phaseOf_of_other hth hother]
        · exact phaseOf_resume_ne hth hj
      · funext j
        rw [Undo.parts_setParts]
        show (reversalBy trade.id (cfg.state.runAdjust call side fails) j).map _ = _
        split
        · rename_i heq
          rw [heq, hself]
          simp only [Option.map_some, Option.some.injEq]
          funext side'
          rw [settle_carried, Function.update_apply]
        · rename_i hj
          rw [hothers j hj]
          rfl
    rw [hview]
    exact h.undo.step (.part (parts_view hs) hopen halike hreturned hthrown)
  · intro j
    rw [after_ok, hmoves, List.filter_append]
    by_cases hj : j = call
    · subst hj
      have hmine := h.moved j
      rw [hs] at hmine
      rw [hself]
      have hkept : (if (cfg.state.carryOut s side fails).1 = true then s.moves side else []).filter
          (fun m => decide (m.call = j)) =
          if (cfg.state.carryOut s side fails).1 = true then s.moves side else [] := by
        split
        · exact filter_moves_all fun m hm _ => decide_eq_true (hm.trans hcall)
        · rfl
      rw [hkept]
      exact (hmine.append_right _).trans (settle_carriedMoves hopen _)
    · have hnothing : (if (cfg.state.carryOut s side fails).1 = true then s.moves side
          else []).filter (fun m => decide (m.call = j)) = [] := by
        split
        · refine filter_moves_none fun m hm _ => decide_eq_false ?_
          rw [hm, hcall]
          exact fun heq => hj heq.symm
        · rfl
      rw [hnothing, List.append_nil, hothers j hj]
      exact h.moved j

end Adjusting

/-! ### Any step -/

section Steps

variable {trade : FxTrade} {windowMinutes i : ℕ} {cfg : FxConfig}
  {th : Thread FxCall FxCmd FxCmd.Reply Err (Option FxTrade)} {c : FxCmd}
  {next : Except Err c.Reply → FxProc (Option FxTrade)}

/-- Only a command that may fail does so. -/
theorem mayFail_of_error {st : FxDb} {e : Err} (h : exec c st = .error e) : mayFail c = true := by
  cases c with
  | getRate base target => rfl
  | managerSave row => rfl
  | _ => cases h

/-- The commands of another trade. -/
theorem quiet_touches {id x : ℕ} {st st' : FxDb} {a : c.Reply} (hx : x ≠ id)
    (hnone : reversalBy id st i = none) (htouches : Touches i x c)
    (hexec : exec c st = .ok (a, st')) : Quiet id st st' := by
  cases c with
  | startAdjusts s =>
    obtain ⟨rfl, rfl⟩ := htouches
    cases hexec
    exact quiet_putStarted hx hnone
  | commit row =>
    obtain rfl := htouches
    cases hexec
    exact quiet_putTrade hx
  | runAdjust call side fails => exact htouches.elim
  | tick ms => exact htouches.elim
  | _ =>
    refine quiet_exec hexec ?_ ?_ ?_ <;> intros <;> simp

/-- Whoever is not reversing the trade has started nothing for it. -/
theorem Reversing.none_of_other (h : Reversing trade windowMinutes cfg)
    (hth : cfg.thread i = some th) (hother : ∀ madeAt, th.call ≠ .reverse trade.id madeAt) :
    reversalBy trade.id cfg.state i = none := by
  cases hrev : reversalBy trade.id cfg.state i with
  | none => rfl
  | some s =>
    obtain ⟨⟨madeAt, hmade, -⟩, -⟩ := h.own i s hrev
    rw [Config.called_of_thread hth] at hmade
    exact absurd (Option.some.inj hmade) (hother madeAt)

/-- A step of a call that does not reverse the trade. -/
theorem Reversing.step_other (h : Reversing trade windowMinutes cfg)
    (hth : cfg.thread i = some th) (hother : ∀ madeAt, th.call ≠ .reverse trade.id madeAt)
    (hasks : Asks trade windowMinutes i th.call c next) {a : c.Reply} {st' : FxDb}
    (hexec : exec c cfg.state = .ok (a, st')) (hD : (inConcert trade.id).onStep cfg th c false) :
    Reversing trade windowMinutes (cfg.resume th next (.ok (a, st'))) := by
  have hnone := h.none_of_other hth hother
  cases hk : th.call with
  | execute dto =>
    rw [hk] at hasks
    have hne := h.executes i dto (by rw [Config.called_of_thread hth, hk])
    exact h.quiet_other hth hother (quiet_touches hne hnone hasks hexec)
  | reverse id madeAt =>
    rw [hk] at hasks
    have hne : id ≠ trade.id := by
      rintro rfl
      exact hother madeAt hk
    exact h.quiet_other hth hother (quiet_touches hne hnone hasks.1 hexec)
  | tick ms =>
    have htick : c = .tick ms := by rwa [hk] at hasks
    subst htick
    refine h.quiet_other hth hother (quiet_exec hexec ?_ ?_ ?_) <;> intros <;> simp
  | adjust call side fails =>
    have hadjust : c = .runAdjust call side fails := by rwa [hk] at hasks
    subst hadjust
    cases hexec
    by_cases hopen : ∃ s, reversalBy trade.id cfg.state call = some s ∧ (s.part side).carried = none
    · obtain ⟨s, hs, hcarried⟩ := hopen
      exact h.adjusts hth hother hs hcarried hD
    · refine h.quiet_other hth hother (quiet_runAdjust fun s hs => ?_)
      rw [Option.isSome_iff_ne_none]
      exact fun hcarried => hopen ⟨s, hs, hcarried⟩

/-- A step of the reversal of the trade. -/
theorem Reversing.step_back (h : Reversing trade windowMinutes cfg) {madeAt : ℕ}
    (hth : cfg.thread i = some th) (hcall : th.call = .reverse trade.id madeAt)
    (hproc : th.proc = .await c next) (htouches : Touches i trade.id c)
    (hasks : AsksBack trade windowMinutes i madeAt c next) {a : c.Reply} {st' : FxDb}
    (hexec : exec c cfg.state = .ok (a, st')) (hD : (inConcert trade.id).onStep cfg th c false) :
    Reversing trade windowMinutes (cfg.resume th next (.ok (a, st'))) := by
  cases c with
  | findTrade id =>
    cases hexec
    exact h.found hth hcall hproc hasks hD
  | startAdjusts s =>
    cases hexec
    exact h.starts hth hcall hproc hasks
  | commit row =>
    cases hexec
    exact h.commits hth hcall hproc hasks hD
  | runAdjust call side fails => exact htouches.elim
  | tick ms => exact htouches.elim
  | _ =>
    refine h.onward hth hcall hproc ?_ ?_ ?_ (quiet_exec hexec ?_ ?_ ?_) <;> intros <;> simp

/-- What is read is the row as it is stored, and what the clock says is no
earlier than the call. -/
theorem Reversing.replies (h : Reversing trade windowMinutes cfg) (hth : cfg.thread i = some th)
    {a : c.Reply} {st' : FxDb} (hexec : exec c cfg.state = .ok (a, st')) :
    Replies trade th.call c a := by
  have hcalled := Config.called_of_thread hth
  cases c with
  | findTrade id =>
    cases hexec
    have hread : ∀ row, cfg.state.trade id = some row → row.id = id ∧
        (id = trade.id → ∃ r, row = { trade with reversedAt := r }) := by
      intro row hrow
      refine ⟨Table.key_of_get _ hrow, ?_⟩
      rintro rfl
      obtain ⟨r, hr⟩ := h.stored
      exact ⟨r, Option.some.inj (hrow.symm.trans hr)⟩
    cases th.call <;> exact hread
  | now =>
    cases hexec
    cases hk : th.call with
    | reverse id madeAt => exact h.made i id madeAt (by rw [hcalled, hk])
    | _ => trivial
  | managerSave row =>
    have hsaved : a.id = row.id ∧ (row.id = trade.id → a = row) := by
      rw [exec] at hexec
      split at hexec
      · cases hexec
        exact ⟨rfl, fun _ => rfl⟩
      · rename_i hnew
        cases hexec
        refine ⟨rfl, fun heq => ?_⟩
        obtain ⟨r, hr⟩ := h.stored
        rw [heq, hr] at hnew
        cases hnew
    cases th.call <;> exact hsaved
  | _ => cases th.call <;> trivial

/-- **Step lemma.** -/
theorem Reversing.step (h : Reversing trade windowMinutes cfg) {fault : Option Err}
    (hth : cfg.thread i = some th) (hproc : th.proc = .await c next)
    (hasks : Asks trade windowMinutes i th.call c next)
    (hfault : fault = none ∨ mayFail c = true)
    (hD : (inConcert trade.id).onStep cfg th c (failed (outcome fault (exec c cfg.state)))) :
    Reversing trade windowMinutes (cfg.resume th next (outcome fault (exec c cfg.state))) := by
  by_cases hback : ∃ madeAt, th.call = .reverse trade.id madeAt
  · obtain ⟨madeAt, hcall⟩ := hback
    rw [hcall] at hasks
    cases hout : outcome fault (exec c cfg.state) with
    | error e =>
      have hmay : mayFail c = true := by
        rcases hfault with rfl | hmay
        · exact mayFail_of_error hout
        · exact hmay
      rw [hout] at hD
      exact h.rejected hth hcall hproc hmay hD e
    | ok r =>
      rw [hout] at hD
      exact h.step_back hth hcall hproc hasks.1 (hasks.2 rfl) (outcome_eq_ok hout).2 hD
  · have hother : ∀ madeAt, th.call ≠ .reverse trade.id madeAt :=
      fun madeAt heq => hback ⟨madeAt, heq⟩
    cases hout : outcome fault (exec c cfg.state) with
    | error e => exact h.quiet_other hth hother (Quiet.refl trade.id cfg.state)
    | ok r =>
      rw [hout] at hD
      exact h.step_other hth hother hasks (outcome_eq_ok hout).2 hD

end Steps

end Fx

end NexaFx
