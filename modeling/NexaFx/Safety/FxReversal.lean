import NexaFx.Safety.Reversing

/-!
# NexaFx — reversing a trade

`reversal_single`: in every interleaving of calls that act `inConcert`, the
balances are moved back at most once, by exactly what the trade moved, in time;
and when nothing is under way `reversedAt` is set exactly when that has
happened. An adjustment that fails unseen, two calls at once and an amount at a
rounding tie each break it (`reversal_broken`).
-/

namespace NexaFx

open Async Decimal

namespace Fx

-- ---------------------------------------------------------------------------
-- The property
-- ---------------------------------------------------------------------------

/-- Nothing is under way: no call of the reversal is between its first step and
its end, and no adjustment of one is open. -/
def Settled (id : ℕ) (cfg : FxConfig) : Prop :=
  (∀ i, phaseOf id cfg i ≠ .running) ∧
  ∀ i s side, reversalBy id cfg.state i = some s → (s.part side).carried ≠ none

/-- The amounts of a trade as `executeTrade` moves them. -/
def movedFrom (trade : FxTrade) : ℤ := shift (100 * -trade.fromAmount)
def movedTo (trade : FxTrade) : ℤ := shift (100 * trade.toAmount)

/-- A change of `cents` on the wallet; no entry where there is none to make. -/
def backMove (i : ℕ) (trade : FxTrade) (currency : String) (amount : ℚ) (cents : ℤ) : List Move :=
  if amount = 0 then [] else [⟨i, trade.id, trade.userId, normalizeCurrencyCode currency, cents⟩]

/-- Exactly what the trade moved, moved back by the call `i`. -/
def backMoves (trade : FxTrade) (i : ℕ) : List Move :=
  backMove i trade trade.fromCurrency trade.fromAmount (-movedFrom trade) ++
    backMove i trade trade.toCurrency trade.toAmount (-movedTo trade)

structure SingleUndo (trade : FxTrade) (windowMinutes : ℕ) (cfg : FxConfig) : Prop where
  /-- At any time, the changes made are among those of one exact undo. -/
  once : ∃ i, (movesOf trade.id cfg.state).Subperm (backMoves trade i)
  /-- They are of calls that were made in time. -/
  inTime : ∀ m ∈ movesOf trade.id cfg.state, ∃ madeAt,
    cfg.called m.call = some (.reverse trade.id madeAt) ∧
    (madeAt : ℚ) ≤ trade.executedAt + 60000 * windowMinutes
  /-- At the end the row says what has happened. -/
  recorded : Settled trade.id cfg → ∃ row, cfg.state.trade trade.id = some row ∧
    ((row.reversedAt.isSome = true ∧ ∃ i, (movesOf trade.id cfg.state).Perm (backMoves trade i)) ∨
      (row.reversedAt = none ∧ movesOf trade.id cfg.state = []))

/-- The trades and balances of `st`, with nothing under way. -/
def start (st : FxDb) : FxConfig where
  state := { st with started := [], db := { st.db with moves := [] } }
  threads := []

-- ---------------------------------------------------------------------------
-- From the invariant to the property
-- ---------------------------------------------------------------------------

section Property

variable {trade : FxTrade} {windowMinutes : ℕ} {st : FxDb} {cfg : FxConfig}

theorem reversing_start (hstored : st.trade trade.id = some trade)
    (hopen : trade.reversedAt = none) : Reversing trade windowMinutes (start st) := by
  have hnone : ∀ i, reversalBy trade.id (start st).state i = none := fun _ => rfl
  constructor
  case stored =>
    refine ⟨none, hstored.trans ?_⟩
    rw [← hopen]
  case executes => exact fun _ _ hcall => by cases hcall
  case made => exact fun _ _ _ hcall => by cases hcall
  case own => exact fun i s hs => absurd ((hnone i).symm.trans hs) (by simp)
  case stages => exact fun _ _ _ _ _ hth => by cases hth
  case undo =>
    refine Undo.inv_start ?_ (fun _ => rfl) (fun _ => rfl)
    show ((start st).state.trade trade.id).any _ = false
    rw [show (start st).state.trade trade.id = some trade from hstored]
    simp [hopen]
  case moved => exact fun i => List.Perm.refl _

theorem reversing_of_reach (hstored : st.trade trade.id = some trade)
    (hopen : trade.reversedAt = none)
    (h : Reach (server windowMinutes) (inConcert trade.id) (start st) cfg) :
    Reversing trade windowMinutes cfg := by
  refine (h.invariant_always_by (I := Reversing trade windowMinutes) (G := Replies trade)
    (Q := Asks trade windowMinutes) (reversing_start hstored hopen) rfl
    (fun i k => prog_asks i hopen k) ?call ?step).1
  case call => exact fun cfg i k hI hfresh hcall => hI.spawn hfresh hcall
  case step =>
    intro cfg i fault th c next hI hth hproc hasks hfault hD
    refine ⟨hI.step hth hproc hasks hfault hD, ?_⟩
    intro a st' hout
    exact hI.replies hth (outcome_eq_ok hout).2

/-- Moved back is what was moved. -/
theorem shift_neg {d : ℚ} (h : ¬ Tie d) : shift (-d) = -shift d := by
  have hback := shift_add_shift_neg d
  rw [if_neg h] at hback
  omega

theorem not_tie_intCast (n : ℤ) : ¬ Tie (n : ℚ) := by
  unfold Tie
  rw [Int.fract_intCast]
  norm_num

theorem moves_reversalAdjusts (hcents : ∃ n : ℤ, 100 * trade.fromAmount = n)
    (htie : ¬ Tie (100 * trade.toAmount)) (i : ℕ) :
    (reversalAdjusts trade i).moves .first ++ (reversalAdjusts trade i).moves .second =
      backMoves trade i := by
  obtain ⟨n, hn⟩ := hcents
  have hfrom : shift (100 * trade.fromAmount) = -movedFrom trade := by
    rw [movedFrom, mul_neg, shift_neg, neg_neg]
    rw [hn]
    exact not_tie_intCast n
  have hto : shift (100 * -trade.toAmount) = -movedTo trade := by
    rw [movedTo, mul_neg, shift_neg htie]
  have hfirst : (reversalAdjusts trade i).moves .first =
      backMove i trade trade.fromCurrency trade.fromAmount (-movedFrom trade) := by
    rw [← hfrom]
    rfl
  have hsecond : (reversalAdjusts trade i).moves .second =
      backMove i trade trade.toCurrency trade.toAmount (-movedTo trade) := by
    rw [← hto]
    unfold Started.moves backMove
    simp only [reversalAdjusts, Started.part, neg_eq_zero]
  rw [hfirst, hsecond, backMoves]

theorem carriedMoves_all {s : Started} (h : ∀ side, (s.part side).carried = some true) :
    s.carriedMoves = s.moves .first ++ s.moves .second := by
  simp [Started.carriedMoves, h]

theorem carriedMoves_nil {s : Started} (h : ∀ side, (s.part side).carried = some false) :
    s.carriedMoves = [] := by
  simp [Started.carriedMoves, h]

theorem carriedMoves_sublist (s : Started) :
    s.carriedMoves.Sublist (s.moves .first ++ s.moves .second) := by
  unfold Started.carriedMoves
  simp only [List.flatMap_cons, List.flatMap_nil, List.append_nil]
  refine List.Sublist.append ?_ ?_ <;> split
  · exact List.Sublist.refl _
  · exact List.nil_sublist _
  · exact List.Sublist.refl _
  · exact List.nil_sublist _

namespace Reversing

/-- A change made is that of a part that went through. -/
theorem mover (h : Reversing trade windowMinutes cfg) {m : Move}
    (hm : m ∈ movesOf trade.id cfg.state) :
    ∃ s side, reversalBy trade.id cfg.state m.call = some s ∧
      (s.part side).carried = some true := by
  have hmine : m ∈ (movesOf trade.id cfg.state).filter fun m' => decide (m'.call = m.call) :=
    List.mem_filter.mpr ⟨hm, decide_eq_true rfl⟩
  have hcarried := (h.moved m.call).mem_iff.mp hmine
  cases hs : reversalBy trade.id cfg.state m.call with
  | none =>
    rw [hs] at hcarried
    cases hcarried
  | some s =>
    rw [hs] at hcarried
    obtain ⟨side, -, hside⟩ := List.mem_flatMap.mp hcarried
    refine ⟨s, side, rfl, ?_⟩
    by_contra hno
    rw [if_neg hno] at hside
    cases hside

/-- All changes are made by the one call of which a part went through. -/
theorem movesOf_perm (h : Reversing trade windowMinutes cfg) {i : ℕ} {s : Started} {side : Side}
    (hs : reversalBy trade.id cfg.state i = some s) (hside : (s.part side).carried = some true) :
    (movesOf trade.id cfg.state).Perm s.carriedMoves := by
  have hall : (movesOf trade.id cfg.state).filter (fun m => decide (m.call = i)) =
      movesOf trade.id cfg.state := by
    rw [List.filter_eq_self]
    intro m hm
    obtain ⟨s', side', hs', hside'⟩ := h.mover hm
    exact decide_eq_true
      (h.undo.mover_unique (parts_view hs') hside' (parts_view hs) hside)
  have hmoved := h.moved i
  rw [hall, hs] at hmoved
  exact hmoved

/-- The two adjustments of a call are those of an exact undo. -/
theorem moves_eq (h : Reversing trade windowMinutes cfg)
    (hcents : ∃ n : ℤ, 100 * trade.fromAmount = n) (htie : ¬ Tie (100 * trade.toAmount))
    {i : ℕ} {s : Started} (hs : reversalBy trade.id cfg.state i = some s) :
    s.moves .first ++ s.moves .second = backMoves trade i := by
  rw [(h.own i s hs).2, (h.own i s hs).2, moves_reversalAdjusts hcents htie]

theorem singleUndo (h : Reversing trade windowMinutes cfg)
    (hcents : ∃ n : ℤ, 100 * trade.fromAmount = n) (htie : ¬ Tie (100 * trade.toAmount)) :
    SingleUndo trade windowMinutes cfg := by
  constructor
  case once =>
    by_cases hnil : movesOf trade.id cfg.state = []
    · rw [hnil]
      exact ⟨0, List.nil_subperm⟩
    · obtain ⟨m, hm⟩ := List.exists_mem_of_ne_nil _ hnil
      obtain ⟨s, side, hs, hside⟩ := h.mover hm
      refine ⟨m.call, ?_⟩
      rw [← h.moves_eq hcents htie hs]
      exact (h.movesOf_perm hs hside).subperm.trans (carriedMoves_sublist s).subperm
  case inTime =>
    intro m hm
    obtain ⟨s, side, hs, -⟩ := h.mover hm
    exact (h.own m.call s hs).1
  case recorded =>
    intro hsettled
    obtain ⟨r, hr⟩ := h.stored
    refine ⟨_, hr, ?_⟩
    have hflag : (view trade.id cfg).flag = r.isSome := by
      show (cfg.state.trade trade.id).any _ = _
      rw [hr]
      rfl
    have hcarried : ∀ i parts side, (view trade.id cfg).parts i = some parts →
        parts side ≠ none := by
      intro i parts side hparts
      obtain ⟨s, hs, rfl⟩ := Option.map_eq_some_iff.mp hparts
      exact hsettled.2 i s side hs
    rcases h.undo.settled hsettled.1 hcarried with ⟨hset, i, parts, hparts, hwell⟩ | ⟨hset, hbad⟩
    · obtain ⟨s, hs, rfl⟩ := Option.map_eq_some_iff.mp hparts
      refine Or.inl ⟨hflag.symm.trans hset, i, ?_⟩
      rw [← h.moves_eq hcents htie hs, ← carriedMoves_all hwell]
      exact h.movesOf_perm hs (hwell .first)
    · refine Or.inr ⟨?_, ?_⟩
      · rw [hflag] at hset
        exact Option.isSome_eq_false_iff.mp hset |> Option.isNone_iff_eq_none.mp
      · rw [List.eq_nil_iff_forall_not_mem]
        intro m hm
        obtain ⟨s, side, hs, hside⟩ := h.mover hm
        have hno := hbad m.call _ side (parts_view hs)
        rw [hside] at hno
        cases hno

end Reversing

-- ---------------------------------------------------------------------------
-- Balances
-- ---------------------------------------------------------------------------

/-- The balances are those of the start plus the logged changes. -/
def Accounted (st st' : FxDb) : Prop :=
  ∀ a c, st'.db.cents a c = st.db.cents a c + st'.db.net (fun _ => true) a c

theorem Accounted.runAdjust {st' : FxDb} (h : Accounted st st') (call : ℕ) (side : Side)
    (fails : Bool) : Accounted st (st'.runAdjust call side fails) := by
  rcases runAdjust_cases st' call side fails with ⟨s, -, -, heq⟩ | ⟨-, heq⟩
  · rw [heq]
    intro a c
    show (st'.carryOut s side fails).2.cents a c =
      st.db.cents a c + (st'.carryOut s side fails).2.net (fun _ => true) a c
    rcases carryOut_spec st' s side fails with ⟨-, -, -, hadj⟩ | ⟨-, -, hsame⟩
    · rw [hadj.cents, hadj.net, h a c]
      simp only [true_and]
      ring
    · rw [hsame]
      exact h a c
  · rw [heq]
    exact h

theorem accounted_of_reach {D : Discipline FxCall FxCmd FxCmd.Reply Err FxDb (Option FxTrade)}
    (h : Reach (server windowMinutes) D (start st) cfg) : Accounted st cfg.state := by
  refine h.invariant (I := fun cfg => Accounted st cfg.state) ?init (fun _ _ _ hI _ _ => hI) ?step
  case init =>
    intro a c
    show st.db.cents a c = st.db.cents a c + 0
    rw [add_zero]
  case step =>
    intro cfg i fault th c next hI _ _ _ _ _
    cases hout : outcome fault ((server windowMinutes).exec c cfg.state) with
    | error e => exact hI
    | ok r =>
      have hexec : exec c cfg.state = .ok r := (outcome_eq_ok hout).2
      show Accounted st r.2
      cases c with
      | runAdjust call side fails =>
        cases hexec
        exact hI.runAdjust call side fails
      | getRate base target =>
        rw [exec] at hexec
        split at hexec
        · cases hexec
          exact hI
        · cases hexec
      | managerSave row =>
        rw [exec] at hexec
        split at hexec <;> cases hexec <;> exact hI
      | _ =>
        cases hexec
        exact hI

end Property

-- ---------------------------------------------------------------------------
-- The result
-- ---------------------------------------------------------------------------

/-- **A reversal is an exact, single undo** in every interleaving in which the
calls act in concert. -/
theorem reversal_single {trade : FxTrade} {windowMinutes : ℕ} {st : FxDb} {cfg : FxConfig}
    (hstored : st.trade trade.id = some trade) (hopen : trade.reversedAt = none)
    (hcents : ∃ n : ℤ, 100 * trade.fromAmount = n) (htie : ¬ Tie (100 * trade.toAmount))
    (h : Reach (server windowMinutes) (inConcert trade.id) (start st) cfg) :
    SingleUndo trade windowMinutes cfg ∧ Accounted st cfg.state :=
  ⟨(reversing_of_reach hstored hopen h).singleUndo hcents htie, accounted_of_reach h⟩

/-! ### Runs -/

/-- The condition, as a check on a schedule: it asks more of the save, which
comes before the adjustments. -/
def allCarried (id : ℕ) (cfg : FxConfig)
    (th : Thread FxCall FxCmd FxCmd.Reply Err (Option FxTrade)) : FxCmd → Bool
  | .findTrade _ => cfg.threads.all fun th' => decide (progress th' ≠ .running)
  | .managerSave _ | .commit _ => (reversalBy id cfg.state th.id).all fun s =>
      s.first.carried.isNone && s.second.carried.isNone
  | .runAdjust call side fails => (reversalBy id cfg.state call).all fun s =>
      (cfg.state.carryOut s side fails).1 && decide (s.first.carried ≠ some false) &&
        decide (s.second.carried ≠ some false) && decide (phaseOf id cfg call ≠ .thrown)
  | _ => true

/-- A call that runs is one of the threads. -/
theorem not_running_of_all {id : ℕ} {cfg : FxConfig}
    (h : cfg.threads.all (fun th => decide (progress th ≠ .running)) = true) (i : ℕ) :
    phaseOf id cfg i ≠ .running := by
  unfold phaseOf
  cases hth : cfg.thread i with
  | none => simp
  | some th =>
    have hended : progress th ≠ .running :=
      of_decide_eq_true (List.all_eq_true.mp h th (Table.mem_of_get _ hth))
    simp only
    split
    · split
      · exact hended
      · simp
    · simp

theorem inConcert_of_check {id : ℕ} {cfg : FxConfig}
    {th : Thread FxCall FxCmd FxCmd.Reply Err (Option FxTrade)} {c : FxCmd} {failed : Bool}
    (h : allCarried id cfg th c = true) : (inConcert id).onStep cfg th c failed := by
  refine ⟨?_, ?_, ?_⟩
  · rintro rfl -
    exact not_running_of_all h
  · -- nothing is carried out yet
    intro row s side ok hc hs hside
    have hnone : s.first.carried = none ∧ s.second.carried = none := by
      rcases hc with rfl | rfl <;>
        simpa only [allCarried, hs, Option.all_some, Bool.and_eq_true,
          Option.isNone_iff_eq_none] using h
    exfalso
    cases side with
    | first => exact absurd (hnone.1.symm.trans hside) (by simp)
    | second => exact absurd (hnone.2.symm.trans hside) (by simp)
  · rintro call side fails s rfl hs -
    simp only [allCarried, hs, Option.all_some, Bool.and_eq_true, decide_eq_true_eq] at h
    obtain ⟨⟨⟨hok, hfirst⟩, hsecond⟩, hphase⟩ := h
    refine ⟨?_, fun _ => hok, fun hthrown => absurd hthrown hphase⟩
    intro side' ok' hside'
    rw [hok]
    cases ok' with
    | true => rfl
    | false => cases side' with
      | first => exact absurd hside' hfirst
      | second => exact absurd hside' hsecond

/-- User 1 has bought `toAmount` EUR for 100.00 USD. -/
def sold (toAmount : ℚ) : FxTrade where
  id := 0
  userId := 1
  fromCurrency := "USD"
  toCurrency := "EUR"
  fromAmount := 100
  toAmount := toAmount
  rate := 9 / 10
  executedAt := 1767225600000
  reversedAt := none

/-- After the trade, with `cents` on the EUR wallet. -/
def afterSale (toAmount : ℚ) (cents : ℤ) : FxDb where
  db := .deployed [{ Wallet.create 1 "EUR" with balance := cents }]
  trades := [sold toAmount]
  rates := fun _ _ => none
  volume := fun _ => 0
  started := []

/-- The call `i` reverses the trade. -/
def called (i : ℕ) : Event FxCall Err := .call i (.reverse 0 1767225600000)

/-- `n` steps of the call `i`. -/
def steps (i n : ℕ) : List (Event FxCall Err) := List.replicate n (.step i none)

/-- Both adjustments of the call 1 run, as the calls `i` and `j`. -/
def adjustments (call i j : ℕ) : List (Event FxCall Err) :=
  [.call i (.adjust call .first false), .step i none,
    .call j (.adjust call .second false), .step j none]

/-- The call 1 reverses the trade, then its adjustments run. -/
theorem reversal_single_ninety :
    ∃ cfg, Reach (server 15) (inConcert 0) (start (afterSale 90 9000)) cfg ∧
      SingleUndo (sold 90) 15 cfg ∧ Accounted (afterSale 90 9000) cfg.state ∧
      cfg.state.db.cents 1 "USD" = 10000 ∧ cfg.state.db.cents 1 "EUR" = 0 := by
  have hrun : (((server 15).runChecked (fun cfg th c _ => allCarried 0 cfg th c)
      ((start (afterSale 90 9000)).spawn 1 (.reverse 0 1767225600000)
        (prog 15 1 (.reverse 0 1767225600000)))
      (steps 1 7 ++ adjustments 1 2 3)).map fun cfg =>
        (cfg.state.db.cents 1 "USD", cfg.state.db.cents 1 "EUR")) = some (10000, 0) := by
    decide +kernel
  obtain ⟨cfg, hcfg, hcents⟩ := Option.map_eq_some_iff.mp hrun
  have hcalled : Reach (server 15) (inConcert 0) (start (afterSale 90 9000)) _ :=
    Reach.refl.call 1 (.reverse 0 1767225600000) rfl
      ⟨fun dto heq => (by cases heq), fun id madeAt heq => (by cases heq; rfl)⟩
  have hreach : Reach (server 15) (inConcert 0) (start (afterSale 90 9000)) cfg := by
    refine hcalled.of_runChecked ?_ (fun _ _ _ _ h => inConcert_of_check h) hcfg
    intro i k hmem cfg
    -- the only calls are those of the adjustments
    simp only [steps, adjustments, List.mem_append, List.mem_replicate, List.mem_cons,
      List.not_mem_nil, or_false, reduceCtorEq, and_false, false_or, Event.call.injEq] at hmem
    rcases hmem with ⟨-, rfl⟩ | ⟨-, rfl⟩ <;>
      exact ⟨fun dto heq => (by cases heq), fun id madeAt heq => (by cases heq)⟩
  obtain ⟨husd, heur⟩ := Prod.mk.inj hcents
  have hstored : (afterSale 90 9000).trade (sold 90).id = some (sold 90) := rfl
  obtain ⟨hsingle, haccounted⟩ := reversal_single hstored rfl
    ⟨10000, by norm_num [sold]⟩ (by decide +kernel) hreach
  exact ⟨cfg, hreach, hsingle, haccounted, husd, heur⟩

/-! ### What goes wrong -/

/-- Nothing is under way, the row is reversed, and what was moved is not what an
exact undo moves. -/
def wronglyReversed (trade : FxTrade) (cfg : FxConfig) : Bool :=
  cfg.threads.all (fun th => decide (progress th ≠ .running)) &&
  cfg.state.started.all (fun s => s.first.carried.isSome && s.second.carried.isSome) &&
  (cfg.state.trade trade.id).any (fun row => row.reversedAt.isSome) &&
  !decide (((movesOf trade.id cfg.state).map Move.cents).Perm
    ((backMoves trade 0).map Move.cents))

theorem backMoves_cents (trade : FxTrade) (i j : ℕ) :
    (backMoves trade i).map Move.cents = (backMoves trade j).map Move.cents := by
  have hback : ∀ currency amount cents, (backMove i trade currency amount cents).map Move.cents =
      (backMove j trade currency amount cents).map Move.cents := by
    intro currency amount cents
    unfold backMove
    split <;> rfl
  unfold backMoves
  rw [List.map_append, List.map_append, hback, hback]

theorem not_singleUndo {trade : FxTrade} {windowMinutes : ℕ} {cfg : FxConfig}
    (h : wronglyReversed trade cfg = true) : ¬ SingleUndo trade windowMinutes cfg := by
  simp only [wronglyReversed, Bool.and_eq_true, Bool.not_eq_true', decide_eq_false_iff_not] at h
  obtain ⟨⟨⟨hended, hcarried⟩, hrow⟩, hperm⟩ := h
  intro hsingle
  have hsettled : Settled trade.id cfg := by
    refine ⟨not_running_of_all hended, ?_⟩
    intro i s side hs
    have hboth := List.all_eq_true.mp hcarried s (Table.mem_of_get _ (reversalBy_some hs).1)
    rw [Bool.and_eq_true] at hboth
    rw [← Option.isSome_iff_ne_none]
    cases side with
    | first => exact hboth.1
    | second => exact hboth.2
  obtain ⟨row, hstored, ⟨-, i, hexact⟩ | ⟨hopen, -⟩⟩ := hsingle.recorded hsettled
  · apply hperm
    rw [backMoves_cents trade 0 i]
    exact hexact.map Move.cents
  · rw [hstored] at hrow
    simp [hopen] at hrow

/-- The schedule leads to a reversed row and these changes, and they are not one
exact undo. -/
def BreaksUndo (toAmount : ℚ) (cents : ℤ) (es : List (Event FxCall Err)) (moved : List ℤ) :
    Prop :=
  Reach (server 15) .free (start (afterSale toAmount cents))
      ((server 15).play (start (afterSale toAmount cents)) es) ∧
    (movesOf 0 ((server 15).play (start (afterSale toAmount cents)) es).state).map Move.cents =
      moved ∧
    ¬ SingleUndo (sold toAmount) 15 ((server 15).play (start (afterSale toAmount cents)) es)

/-- The EUR are spent; two calls read the trade before either saves; the trade
moved 90.005 EUR, half a cent of it by rounding. -/
theorem reversal_broken :
    BreaksUndo 90 0 (called 1 :: steps 1 7 ++ adjustments 1 2 3) [10000] ∧
    BreaksUndo 90 18000 (called 1 :: called 2 :: steps 1 1 ++ steps 2 7 ++ steps 1 6 ++
      adjustments 1 3 4 ++ adjustments 2 5 6) [10000, -9000, 10000, -9000] ∧
    BreaksUndo (18001 / 200) 9001 (called 1 :: steps 1 7 ++ adjustments 1 2 3) [10000, -9000] := by
  refine ⟨⟨Reach.refl.play _, ?_, not_singleUndo ?_⟩, ⟨Reach.refl.play _, ?_, not_singleUndo ?_⟩,
    ⟨Reach.refl.play _, ?_, not_singleUndo ?_⟩⟩ <;> decide +kernel

end Fx

end NexaFx
