import NexaFx.Model.Fx

/-!
# NexaFx — one trade

What `executeTrade` leaves behind once everything it has started is over. Its
two `adjustBalance` calls are not awaited and not part of the database
transaction, and the volume is counted in memory before the save, so the three
are finished in any order and each may fail on its own.

`executeTrade_atomic_iff` says exactly when this is all or nothing.
-/

namespace NexaFx

open Async Decimal Proc

namespace Fx

-- ---------------------------------------------------------------------------
-- The three pieces, in any order
-- ---------------------------------------------------------------------------

/-- What `executeTrade` waits for, or has started, when it saves. -/
inductive Piece where
  | debit
  | credit
  | save
  deriving DecidableEq

/-- Which steps of a trade fail. -/
structure TradeFaults where
  getRate : Bool
  startTransaction : Bool
  debit : Bool
  credit : Bool
  managerSave : Bool
  commit : Bool

namespace TradeFaults

def none : TradeFaults := ⟨false, false, false, false, false, false⟩

def inject (f : TradeFaults) : FxCmd → Option Err
  | .getRate _ _ => if f.getRate then some .fault else Option.none
  | .startTransaction => if f.startTransaction then some .fault else Option.none
  | .managerSave _ => if f.managerSave then some .fault else Option.none
  | .commit _ => if f.commit then some .fault else Option.none
  | _ => Option.none

/-- The adjustment fails. -/
def adjust (f : TradeFaults) : Side → Bool
  | .first => f.debit
  | .second => f.credit

end TradeFaults

/-- One piece runs to its end. -/
def carry (i : ℕ) (f : TradeFaults) (trade : FxTrade) (st : FxDb) : Piece → FxDb
  | .debit => st.runAdjust i .first (f.adjust .first)
  | .credit => st.runAdjust i .second (f.adjust .second)
  | .save => ((tradeSave trade).run exec f.inject st).2

/-- `executeTrade`, and then the three pieces in the given order. -/
def settle (i : ℕ) (dto : ExecuteTradeDto) (f : TradeFaults) (order : List Piece) (st : FxDb) :
    FxDb :=
  match (tradeStart i dto).run exec f.inject st with
  | (.ok trade, st') => order.foldl (carry i f trade) st'
  | (.error _, st') => st'

-- ---------------------------------------------------------------------------
-- The property
-- ---------------------------------------------------------------------------

/-- The wallets have moved by `debit` and `credit` hundredths, the row exists and
the volume has grown. -/
structure Traded (i : ℕ) (dto : ExecuteTradeDto) (debit credit : ℚ) (st st' : FxDb) : Prop where
  cents : ∀ a c, (st'.db.cents a c : ℚ) = st.db.cents a c +
    (if dto.userId = a ∧ normalizeCurrencyCode dto.fromCurrency = c then debit else 0) +
    (if dto.userId = a ∧ normalizeCurrencyCode dto.toCurrency = c then credit else 0)
  row : ∃ rate, st.rates dto.fromCurrency dto.toCurrency = some rate ∧
    st'.trade i = some { dto.create i rate with executedAt := st.db.now }
  others : ∀ id, id ≠ i → st'.trade id = st.trade id
  volume : st'.volume =
    Function.update st.volume dto.pairKey (st.volume dto.pairKey + dto.fromAmount)

structure Unchanged (st st' : FxDb) : Prop where
  cents : ∀ a c, st'.db.cents a c = st.db.cents a c
  trades : ∀ id, st'.trade id = st.trade id
  volume : st'.volume = st.volume

/-- The rate at which the trade would be made. -/
def FxDb.rate (st : FxDb) (dto : ExecuteTradeDto) : ℚ :=
  (st.rates dto.fromCurrency dto.toCurrency).getD 0

/-- The changes of the two wallets, in hundredths, before they are rounded. -/
def ExecuteTradeDto.debit (dto : ExecuteTradeDto) : ℚ := 100 * -dto.fromAmount
def ExecuteTradeDto.credit (dto : ExecuteTradeDto) (rate : ℚ) : ℚ := 100 * dto.toAmount rate

def AllOrNothing (i : ℕ) (dto : ExecuteTradeDto) (debit credit : ℚ) (st st' : FxDb) : Prop :=
  Traded i dto debit credit st st' ∨ Unchanged st st'

-- ---------------------------------------------------------------------------
-- The condition
-- ---------------------------------------------------------------------------

/-- The trade is refused before anything has been started. -/
def NotStarted (dto : ExecuteTradeDto) (f : TradeFaults) (st : FxDb) : Prop :=
  st.rates dto.fromCurrency dto.toCurrency = none ∨ f.getRate = true ∨ f.startTransaction = true

def Side.piece : Side → Piece
  | .first => .debit
  | .second => .credit

def Side.other : Side → Side
  | .first => .second
  | .second => .first

/-- The adjustment goes through when its turn comes, which is after the other
one if `order` says so. -/
def goesThrough (i : ℕ) (dto : ExecuteTradeDto) (f : TradeFaults) (order : List Piece) (st : FxDb)
    (side : Side) : Bool :=
  let s := dto.adjusts i (st.rate dto)
  if order.idxOf side.other.piece < order.idxOf side.piece then
    (({ st with db := (st.carryOut s side.other (f.adjust side.other)).2 } : FxDb).carryOut s side
      (f.adjust side)).1
  else (st.carryOut s side (f.adjust side)).1

/-- What an adjustment would have changed, if it does not go through. -/
def lost (goes : Bool) (delta : ℚ) : ℤ := if goes = true then 0 else shift delta

/-- What rounding adds to a change. -/
def gain (delta : ℚ) : ℚ := shift delta - delta

/-- On each wallet, what is lost of the two adjustments is what is allowed for;
both may be of one wallet. -/
def LostIs (i : ℕ) (dto : ExecuteTradeDto) (f : TradeFaults) (order : List Piece) (st : FxDb)
    (debit credit : ℚ) : Prop :=
  let lostDebit := lost (goesThrough i dto f order st .first) dto.debit
  let lostCredit := lost (goesThrough i dto f order st .second) (dto.credit (st.rate dto))
  if normalizeCurrencyCode dto.fromCurrency = normalizeCurrencyCode dto.toCurrency then
    (lostDebit : ℚ) + lostCredit = debit + credit
  else (lostDebit : ℚ) = debit ∧ (lostCredit : ℚ) = credit

/-- Nothing is started, or there is nothing to trade, or the row is saved and
nothing is lost but what is allowed for. -/
def Atomic (i : ℕ) (dto : ExecuteTradeDto) (f : TradeFaults) (order : List Piece) (st : FxDb)
    (debit credit : ℚ) : Prop :=
  NotStarted dto f st ∨ dto.fromAmount = 0 ∨
    (f.managerSave = false ∧ f.commit = false) ∧ LostIs i dto f order st debit credit

-- ---------------------------------------------------------------------------
-- What the pieces do
-- ---------------------------------------------------------------------------

section Pieces

variable {st st' : FxDb} {s : Started} {f : TradeFaults} {trade row : FxTrade} {i : ℕ}

/-- An adjustment looks at nothing but the balances. -/
theorem carryOut_congr (hdb : st.db = st'.db) (s : Started) (side : Side) (fails : Bool) :
    st.carryOut s side fails = st'.carryOut s side fails := by
  unfold FxDb.carryOut
  rw [hdb]

/-- The other adjustment having ended makes no difference to this one. -/
theorem carryOut_settle (st : FxDb) (s : Started) (ok : Bool) (side : Side) (fails : Bool) :
    st.carryOut (s.settle ok side) side.other fails = st.carryOut s side.other fails := by
  have hcall : (s.settle ok side).call = s.call := by cases side <;> rfl
  have htrade : (s.settle ok side).trade = s.trade := by cases side <;> rfl
  have hpart : (s.settle ok side).part side.other = s.part side.other := by cases side <;> rfl
  unfold FxDb.carryOut
  rw [hcall, htrade, hpart]

theorem carryOut_cents (st : FxDb) (s : Started) (side : Side) (fails : Bool) (a : UserId)
    (c : String) :
    (st.carryOut s side fails).2.cents a c = st.db.cents a c +
      if (s.part side).accountId = a ∧ normalizeCurrencyCode (s.part side).currency = c then
        if (st.carryOut s side fails).1 = true then shift (100 * (s.part side).delta) else 0
      else 0 := by
  rcases carryOut_spec st s side fails with ⟨hok, -, -, hadj⟩ | ⟨hno, -, hsame⟩
  · rw [hadj.cents, hok]
    simp
  · rw [hsame, hno]
    simp

theorem runAdjust_trades (st : FxDb) (i : ℕ) (side : Side) (fails : Bool) :
    (st.runAdjust i side fails).trades = st.trades := by
  rcases runAdjust_cases st i side fails with ⟨s, -, -, heq⟩ | ⟨-, heq⟩ <;> rw [heq]
  rfl

theorem runAdjust_volume (st : FxDb) (i : ℕ) (side : Side) (fails : Bool) :
    (st.runAdjust i side fails).volume = st.volume := by
  rcases runAdjust_cases st i side fails with ⟨s, -, -, heq⟩ | ⟨-, heq⟩ <;> rw [heq]
  rfl

theorem runAdjust_now (st : FxDb) (i : ℕ) (side : Side) (fails : Bool) :
    (st.runAdjust i side fails).db.now = st.db.now := by
  rcases runAdjust_cases st i side fails with ⟨s, -, -, heq⟩ | ⟨-, heq⟩ <;> rw [heq]
  exact carryOut_now st s side fails

/-- The adjustments do not look at the trades. -/
theorem runAdjust_putTrade (st : FxDb) (row : FxTrade) (i : ℕ) (side : Side) (fails : Bool) :
    (st.putTrade row).runAdjust i side fails = (st.runAdjust i side fails).putTrade row := by
  rcases runAdjust_cases st i side fails with ⟨s, hs, hopen, heq⟩ | ⟨hidle, heq⟩
  · have hs' : (st.putTrade row).startedBy i = some s := hs
    have hdb : (st.putTrade row).db = st.db := by simp only [FxDb.putTrade]
    have hsame : (st.putTrade row).carryOut s side fails = st.carryOut s side fails :=
      carryOut_congr hdb s side fails
    refine (runAdjust_eq fails hs' hopen).trans ?_
    rw [hsame, heq]
    rfl
  · rw [heq]
    exact runAdjust_idle side fails hidle

/-- A new trade is stored when neither step of the save fails. -/
theorem tradeSave_state (hfresh : st.trade trade.id = none) :
    ((tradeSave trade).run exec f.inject st).2 =
      if f.managerSave = true ∨ f.commit = true then st
      else st.putTrade { trade with executedAt := st.db.now } := by
  unfold tradeSave
  simp only [bind_eq]
  have hsave : exec (.managerSave trade) st = .ok ({ trade with executedAt := st.db.now }, st) := by
    rw [exec, hfresh]
  by_cases hfail : f.managerSave = true
  · rw [run_call_bind_error (e := .fault) (by simp [TradeFaults.inject, hfail]),
      if_pos (Or.inl hfail)]
  rw [run_call_bind_ok (by simp [TradeFaults.inject, hfail]) hsave]
  by_cases hcommit : f.commit = true
  · rw [run_call_bind_error (e := .fault) (by simp [TradeFaults.inject, hcommit]),
      if_pos (Or.inr hcommit)]
  rw [run_call_bind_ok (by simp [TradeFaults.inject, hcommit]) rfl,
    if_neg (by simp [hfail, hcommit])]
  rfl

/-- Both adjustments are carried out, one after the other. -/
theorem runAdjust_both (hs : st.startedBy i = some s) (hopen : ∀ side, (s.part side).carried = none)
    (side : Side) (fails fails' : Bool) :
    ((st.runAdjust i side fails).runAdjust i side.other fails').db =
      (({ st with db := (st.carryOut s side fails).2 } : FxDb).carryOut s side.other fails').2 := by
  have hcall : s.call = i := Table.key_of_get _ hs
  have hfirst := runAdjust_eq fails hs (hopen side)
  -- the record of the first does not open or close the second
  have hs' : (st.runAdjust i side fails).startedBy i =
      some (s.settle (st.carryOut s side fails).1 side) := by
    rw [hfirst]
    have hkey : (s.settle (st.carryOut s side fails).1 side).call = i := by
      cases side <;> exact hcall
    rw [← hkey]
    exact Table.get_put_self Started.call _ _
  have hopen' : ((s.settle (st.carryOut s side fails).1 side).part side.other).carried = none := by
    cases side with
    | first => exact hopen .second
    | second => exact hopen .first
  rw [runAdjust_eq fails' hs' hopen']
  show (FxDb.carryOut _ _ side.other fails').2 = _
  rw [carryOut_settle]
  refine congrArg Prod.snd (carryOut_congr ?_ s side.other fails')
  rw [hfirst]

/-- The save and an adjustment may as well come the other way round. -/
theorem carry_save_comm (hfresh : st.trade trade.id = none) (side : Side) :
    carry i f trade (carry i f trade st .save) side.piece =
      carry i f trade (carry i f trade st side.piece) .save := by
  have hpiece : ∀ st', carry i f trade st' side.piece = st'.runAdjust i side (f.adjust side) := by
    intro st'
    cases side <;> rfl
  have hfresh' : (st.runAdjust i side (f.adjust side)).trade trade.id = none := by
    unfold FxDb.trade
    rw [runAdjust_trades]
    exact hfresh
  rw [hpiece, hpiece]
  show (((tradeSave trade).run exec f.inject st).2).runAdjust i side (f.adjust side) =
    ((tradeSave trade).run exec f.inject (st.runAdjust i side (f.adjust side))).2
  rw [tradeSave_state hfresh, tradeSave_state hfresh', runAdjust_now]
  split
  · rfl
  · exact runAdjust_putTrade ..

/-- Whatever the order, one adjustment comes first, then the other, and the save
may as well come last. -/
theorem order_cases {order : List Piece} (h : order.Perm [.debit, .credit, .save])
    (hfresh : st.trade trade.id = none) :
    ∃ side : Side, order.idxOf side.piece < order.idxOf side.other.piece ∧
      order.foldl (carry i f trade) st =
        carry i f trade (carry i f trade (carry i f trade st side.piece) side.other.piece)
          .save := by
  have hfresh' : ∀ side : Side, (carry i f trade st side.piece).trade trade.id = none := by
    intro side
    cases side <;> exact (congrArg (Table.get FxTrade.id · trade.id) (runAdjust_trades ..)).trans
      hfresh
  -- the save moves to the end past one adjustment or both
  have hlast : ∀ side : Side, carry i f trade (carry i f trade (carry i f trade st side.piece) .save)
      side.other.piece = carry i f trade (carry i f trade (carry i f trade st side.piece)
        side.other.piece) .save :=
    fun side => carry_save_comm (hfresh' side) side.other
  have hfirst : ∀ side : Side, carry i f trade (carry i f trade (carry i f trade st .save) side.piece)
      side.other.piece = carry i f trade (carry i f trade (carry i f trade st side.piece)
        side.other.piece) .save := by
    intro side
    rw [carry_save_comm hfresh side, hlast side]
  have hmem := List.mem_permutations'.mpr h
  rw [show [Piece.debit, .credit, .save].permutations' = [[.debit, .credit, .save],
    [.credit, .debit, .save], [.credit, .save, .debit], [.debit, .save, .credit],
    [.save, .debit, .credit], [.save, .credit, .debit]] from by decide] at hmem
  simp only [List.mem_cons, List.not_mem_nil, or_false] at hmem
  rcases hmem with rfl | rfl | rfl | rfl | rfl | rfl
  · exact ⟨.first, by decide, rfl⟩
  · exact ⟨.second, by decide, rfl⟩
  · exact ⟨.second, by decide, hlast .second⟩
  · exact ⟨.first, by decide, hlast .first⟩
  · exact ⟨.first, by decide, hfirst .first⟩
  · exact ⟨.second, by decide, hfirst .second⟩

end Pieces

-- ---------------------------------------------------------------------------
-- The whole trade
-- ---------------------------------------------------------------------------

section Whole

variable {i : ℕ} {dto : ExecuteTradeDto} {f : TradeFaults} {order : List Piece} {st : FxDb}

theorem settle_notStarted (h : NotStarted dto f st) : settle i dto f order st = st := by
  have hrun : ∃ e, (tradeStart i dto).run exec f.inject st = (.error e, st) := by
    unfold tradeStart
    simp only [bind_eq]
    by_cases hrate : f.getRate = true
    · exact ⟨.fault, run_call_bind_error (by simp [TradeFaults.inject, hrate])⟩
    cases hr : st.rates dto.fromCurrency dto.toCurrency with
    | none =>
      refine ⟨.unavailable "Exchange rate providers are currently unavailable",
        run_call_bind_error ?_⟩
      simp only [TradeFaults.inject, hrate, exec, hr]
      rfl
    | some rate =>
      have hbegin : f.startTransaction = true := by
        rcases h with hnone | hfail | hfail
        · rw [hr] at hnone
          cases hnone
        · exact absurd hfail hrate
        · exact hfail
      have hgot : exec (.getRate dto.fromCurrency dto.toCurrency) st = .ok (rate, st) := by
        rw [exec, hr]
      rw [run_call_bind_ok (by simp [TradeFaults.inject, hrate]) hgot]
      exact ⟨.fault, run_call_bind_error (by simp [TradeFaults.inject, hbegin])⟩
  obtain ⟨e, he⟩ := hrun
  rw [settle, he]

/-- The state when the three pieces are under way. -/
def underWay (i : ℕ) (dto : ExecuteTradeDto) (st : FxDb) : FxDb :=
  (st.putStarted (dto.adjusts i (st.rate dto))).addVolume dto.pairKey dto.fromAmount

theorem underWay_db (i : ℕ) (dto : ExecuteTradeDto) (st : FxDb) : (underWay i dto st).db = st.db := by
  simp only [underWay, FxDb.addVolume, FxDb.putStarted]

theorem settle_started (h : ¬ NotStarted dto f st) :
    st.rates dto.fromCurrency dto.toCurrency = some (st.rate dto) ∧
    settle i dto f order st =
      order.foldl (carry i f (dto.create i (st.rate dto))) (underWay i dto st) := by
  unfold NotStarted at h
  push Not at h
  obtain ⟨hknown, hrate, hbegin⟩ := h
  obtain ⟨rate, hr⟩ := Option.ne_none_iff_exists'.mp hknown
  have hsame : st.rate dto = rate := by rw [FxDb.rate, hr, Option.getD_some]
  have hgot : exec (.getRate dto.fromCurrency dto.toCurrency) st = .ok (rate, st) := by
    rw [exec, hr]
  have hrun : (tradeStart i dto).run exec f.inject st =
      (.ok (dto.create i rate), underWay i dto st) := by
    unfold tradeStart
    simp only [bind_eq]
    rw [run_call_bind_ok (by simp [TradeFaults.inject, hrate]) hgot,
      run_call_bind_ok (by simp [TradeFaults.inject, hbegin]) rfl,
      run_call_bind_ok rfl rfl, run_call_bind_ok rfl rfl, underWay, hsame]
    rfl
  refine ⟨hr.trans (by rw [hsame]), ?_⟩
  rw [settle, hrun, hsame]

/-- What an adjustment changes on its wallet if it goes through. -/
def change (goes : Bool) (delta : ℚ) : ℤ := if goes = true then shift delta else 0

/-- The two adjustments change the balances by what goes through of them. -/
theorem both_cents {side : Side} (hidx : order.idxOf side.piece < order.idxOf side.other.piece)
    (a : UserId) (c : String) :
    (((underWay i dto st).runAdjust i side (f.adjust side)).runAdjust i side.other
        (f.adjust side.other)).db.cents a c = st.db.cents a c +
      (if dto.userId = a ∧ normalizeCurrencyCode dto.fromCurrency = c then
        change (goesThrough i dto f order st .first) dto.debit else 0) +
      (if dto.userId = a ∧ normalizeCurrencyCode dto.toCurrency = c then
        change (goesThrough i dto f order st .second) (dto.credit (st.rate dto)) else 0) := by
  have hself : (underWay i dto st).startedBy i = some (dto.adjusts i (st.rate dto)) :=
    Table.get_put_self Started.call (dto.adjusts i (st.rate dto)) st.started
  have hopen : ∀ side, ((dto.adjusts i (st.rate dto)).part side).carried = none := by
    intro side
    cases side <;> rfl
  have hfirst : (underWay i dto st).carryOut (dto.adjusts i (st.rate dto)) side (f.adjust side) =
      st.carryOut (dto.adjusts i (st.rate dto)) side (f.adjust side) :=
    carryOut_congr (underWay_db i dto st) ..
  have hsecond : ∀ db', ({ underWay i dto st with db := db' } : FxDb).carryOut
      (dto.adjusts i (st.rate dto)) side.other (f.adjust side.other) =
      ({ st with db := db' } : FxDb).carryOut (dto.adjusts i (st.rate dto)) side.other
        (f.adjust side.other) := by
    intro db'
    refine carryOut_congr ?_ ..
    show db' = db'
    rfl
  rw [runAdjust_both hself hopen, hfirst, hsecond, carryOut_cents]
  show (st.carryOut _ side _).2.cents a c + _ = _
  rw [carryOut_cents]
  -- which of them goes through is asked in the same order
  have hgoes : goesThrough i dto f order st side =
      (st.carryOut (dto.adjusts i (st.rate dto)) side (f.adjust side)).1 := by
    unfold goesThrough
    rw [if_neg (by omega)]
  have hother : side.other.other = side := by cases side <;> rfl
  have hgoes' : goesThrough i dto f order st side.other = (({ st with db :=
      (st.carryOut (dto.adjusts i (st.rate dto)) side (f.adjust side)).2 } : FxDb).carryOut
        (dto.adjusts i (st.rate dto)) side.other (f.adjust side.other)).1 := by
    unfold goesThrough
    rw [hother, if_pos hidx]
  rw [← hgoes, ← hgoes']
  cases side with
  | first => rfl
  | second => exact add_right_comm ..

/-- **What a started trade leaves behind.** -/
theorem settle_spec (hfresh : st.trade i = none) (horder : order.Perm [.debit, .credit, .save])
    (h : ¬ NotStarted dto f st) :
    (settle i dto f order st).volume =
      Function.update st.volume dto.pairKey (st.volume dto.pairKey + dto.fromAmount) ∧
    (settle i dto f order st).trades =
      (if f.managerSave = true ∨ f.commit = true then st.trades else
        Table.put FxTrade.id { dto.create i (st.rate dto) with executedAt := st.db.now }
          st.trades) ∧
    ∀ a c, (settle i dto f order st).db.cents a c = st.db.cents a c +
      (if dto.userId = a ∧ normalizeCurrencyCode dto.fromCurrency = c then
        change (goesThrough i dto f order st .first) dto.debit else 0) +
      (if dto.userId = a ∧ normalizeCurrencyCode dto.toCurrency = c then
        change (goesThrough i dto f order st .second) (dto.credit (st.rate dto)) else 0) := by
  have hunder : (underWay i dto st).trade (dto.create i (st.rate dto)).id = none := hfresh
  obtain ⟨side, hidx, hfold⟩ := order_cases (i := i) (f := f) horder hunder
  rw [(settle_started h).2, hfold]
  have hpiece : ∀ st' (side : Side), carry i f (dto.create i (st.rate dto)) st' side.piece =
      st'.runAdjust i side (f.adjust side) := by
    intro st' side
    cases side <;> rfl
  rw [hpiece, hpiece]
  -- the state before the save
  generalize hboth : ((underWay i dto st).runAdjust i side (f.adjust side)).runAdjust i side.other
    (f.adjust side.other) = st'
  have htrades : st'.trades = st.trades := by
    rw [← hboth, runAdjust_trades, runAdjust_trades]
    rfl
  have hvolume : st'.volume = (underWay i dto st).volume := by
    rw [← hboth, runAdjust_volume, runAdjust_volume]
  have hnow : st'.db.now = st.db.now := by
    rw [← hboth, runAdjust_now, runAdjust_now]
    rfl
  have hfresh' : st'.trade (dto.create i (st.rate dto)).id = none := by
    unfold FxDb.trade
    rw [htrades]
    exact hfresh
  show ((tradeSave _).run exec f.inject st').2.volume = _ ∧
    ((tradeSave _).run exec f.inject st').2.trades = _ ∧
    ∀ a c, ((tradeSave _).run exec f.inject st').2.db.cents a c = _
  have hdb : ((tradeSave (dto.create i (st.rate dto))).run exec f.inject st').2.db = st'.db := by
    rw [tradeSave_state hfresh']
    split
    · rfl
    · simp only [FxDb.putTrade]
  refine ⟨?_, ?_, fun a c => ?_⟩
  · rw [tradeSave_state hfresh']
    split
    · exact hvolume
    · exact hvolume
  · rw [tradeSave_state hfresh']
    split
    · exact htrades
    · rw [FxDb.putTrade, htrades, hnow]
  · rw [hdb, ← hboth]
    exact both_cents hidx a c

theorem change_eq (goes : Bool) (delta : ℚ) : change goes delta = shift delta - lost goes delta := by
  unfold change lost
  cases goes <;> simp

/-- The wallets have moved as they should if what is lost is what is allowed
for. -/
theorem lostIs_iff {debit credit : ℚ} :
    LostIs i dto f order st (shift dto.debit - debit) (shift (dto.credit (st.rate dto)) - credit) ↔
    ∀ a c, ((if dto.userId = a ∧ normalizeCurrencyCode dto.fromCurrency = c then
        (change (goesThrough i dto f order st .first) dto.debit : ℚ) else 0) +
      (if dto.userId = a ∧ normalizeCurrencyCode dto.toCurrency = c then
        (change (goesThrough i dto f order st .second) (dto.credit (st.rate dto)) : ℚ) else 0)) =
      (if dto.userId = a ∧ normalizeCurrencyCode dto.fromCurrency = c then debit else 0) +
      (if dto.userId = a ∧ normalizeCurrencyCode dto.toCurrency = c then credit else 0) := by
  unfold LostIs
  simp only [change_eq]
  push_cast
  split
  · rename_i hsame
    rw [hsame]
    constructor
    · intro hsum a c
      split
      · linarith
      · rfl
    · intro hall
      have hwallet := hall dto.userId (normalizeCurrencyCode dto.toCurrency)
      simp only [and_self, if_true] at hwallet
      linarith
  · rename_i hne
    constructor
    · rintro ⟨hdebit, hcredit⟩ a c
      rw [hdebit, hcredit, sub_sub_cancel, sub_sub_cancel]
    · intro hall
      have hfrom := hall dto.userId (normalizeCurrencyCode dto.fromCurrency)
      have hto := hall dto.userId (normalizeCurrencyCode dto.toCurrency)
      simp only [hne, Ne.symm hne, and_false, and_self, if_true, if_false, add_zero,
        zero_add] at hfrom hto
      constructor <;> linarith

/-- Trading nothing changes nothing. -/
theorem amounts_zero (h : dto.fromAmount = 0) (rate : ℚ) : dto.debit = 0 ∧ dto.credit rate = 0 := by
  have hfixed : toFixed 8 0 = 0 := by
    have hzero := roundHalfAway_intCast 0
    rw [Int.cast_zero] at hzero
    rw [toFixed, zero_mul, hzero]
    simp
  constructor
  · rw [ExecuteTradeDto.debit, h]
    simp
  · rw [ExecuteTradeDto.credit, ExecuteTradeDto.toAmount, h, zero_mul, hfixed, mul_zero]

theorem change_zero (goes : Bool) : change goes 0 = 0 := by
  have hzero := shift_intCast 0
  rw [Int.cast_zero] at hzero
  rw [change, hzero, ite_self]

/-- The row of a started trade. -/
theorem settle_trade (hfresh : st.trade i = none) (horder : order.Perm [.debit, .credit, .save])
    (h : ¬ NotStarted dto f st) (id : ℕ) :
    (settle i dto f order st).trade id =
      if (f.managerSave = false ∧ f.commit = false) ∧ id = i then
        some { dto.create i (st.rate dto) with executedAt := st.db.now }
      else st.trade id := by
  unfold FxDb.trade
  rw [(settle_spec hfresh horder h).2.1]
  by_cases hsaves : f.managerSave = true ∨ f.commit = true
  · rw [if_pos hsaves, if_neg]
    rcases hsaves with hfail | hfail <;> simp [hfail]
  · rw [if_neg hsaves, Table.get_put]
    have hsaves' : f.managerSave = false ∧ f.commit = false := by simpa using hsaves
    simp only [hsaves', and_self, true_and]
    show (if i = id then _ else _) = _
    simp only [eq_comm]

theorem allOrNothing_iff {debit credit : ℚ} (hfresh : st.trade i = none)
    (horder : order.Perm [.debit, .credit, .save])
    (hzero : dto.fromAmount = 0 → debit = 0 ∧ credit = 0) :
    AllOrNothing i dto debit credit st (settle i dto f order st) ↔
      Atomic i dto f order st (shift dto.debit - debit)
        (shift (dto.credit (st.rate dto)) - credit) := by
  by_cases hstarted : NotStarted dto f st
  · rw [settle_notStarted hstarted]
    exact iff_of_true (Or.inr ⟨fun _ _ => rfl, fun _ => rfl, rfl⟩) (Or.inl hstarted)
  obtain ⟨hvolume, -, hcents⟩ := settle_spec hfresh horder hstarted
  have hrow := settle_trade hfresh horder hstarted
  obtain ⟨hrate, -⟩ : _ ∧ settle i dto f order st = _ := settle_started hstarted
  unfold Atomic
  rw [lostIs_iff]
  constructor
  · rintro (htraded | hsame)
    · refine Or.inr (Or.inr ⟨?_, fun a c => ?_⟩)
      · obtain ⟨rate, -, hstored⟩ := htraded.row
        rw [hrow] at hstored
        by_contra hfails
        rw [if_neg (by simp only [hfails, false_and, not_false_eq_true]), hfresh] at hstored
        cases hstored
      · have hmoved := htraded.cents a c
        rw [hcents] at hmoved
        push_cast at hmoved
        linarith
    · -- the volume has grown
      have hgrown := congrFun hsame.volume dto.pairKey
      rw [hvolume, Function.update_self] at hgrown
      exact Or.inr (Or.inl (by linarith))
  · rintro (hno | hnothing | ⟨hsaves, hmoved⟩)
    · exact absurd hno hstarted
    · obtain ⟨hdebit, hcredit⟩ := amounts_zero hnothing (st.rate dto)
      obtain ⟨rfl, rfl⟩ := hzero hnothing
      have hkept : ∀ a c, (settle i dto f order st).db.cents a c = st.db.cents a c := by
        intro a c
        rw [hcents, hdebit, hcredit, change_zero, change_zero]
        simp
      by_cases hsaves : f.managerSave = false ∧ f.commit = false
      · refine Or.inl ⟨fun a c => ?_, ⟨_, hrate, ?_⟩, fun id hid => ?_, hvolume⟩
        · rw [hkept]
          simp
        · rw [hrow, if_pos ⟨hsaves, rfl⟩]
        · rw [hrow, if_neg (fun h => hid h.2)]
      · refine Or.inr ⟨hkept, fun id => ?_, ?_⟩
        · rw [hrow, if_neg (fun h => hsaves h.1)]
        · rw [hvolume, hnothing, add_zero, Function.update_eq_self]
    · refine Or.inl ⟨fun a c => ?_, ⟨_, hrate, ?_⟩, fun id hid => ?_, hvolume⟩
      · have heq := hmoved a c
        rw [hcents]
        push_cast
        linarith
      · rw [hrow, if_pos ⟨hsaves, rfl⟩]
      · rw [hrow, if_neg (fun h => hid h.2)]

end Whole

-- ---------------------------------------------------------------------------
-- The result
-- ---------------------------------------------------------------------------

/-- **When a trade is all or nothing**, for the amounts as a wallet rounds them
and for the exact amounts. -/
theorem executeTrade_atomic_iff {i : ℕ} {dto : ExecuteTradeDto} {f : TradeFaults}
    {order : List Piece} {st : FxDb} (hfresh : st.trade i = none)
    (horder : order.Perm [.debit, .credit, .save]) :
    (AllOrNothing i dto (shift dto.debit) (shift (dto.credit (st.rate dto))) st
        (settle i dto f order st) ↔ Atomic i dto f order st 0 0) ∧
    (AllOrNothing i dto dto.debit (dto.credit (st.rate dto)) st (settle i dto f order st) ↔
      Atomic i dto f order st (gain dto.debit) (gain (dto.credit (st.rate dto)))) := by
  constructor
  · rw [allOrNothing_iff hfresh horder, sub_self, sub_self]
    intro hnothing
    obtain ⟨hdebit, hcredit⟩ := amounts_zero hnothing (st.rate dto)
    have hzero := shift_intCast 0
    rw [Int.cast_zero] at hzero
    rw [hdebit, hcredit, hzero, Int.cast_zero]
    exact ⟨rfl, rfl⟩
  · exact allOrNothing_iff hfresh horder fun hnothing => amounts_zero hnothing _

/-! ### One trade -/

/-- User 1 holds `cents` USD, and a USD is 0.90 EUR. -/
def market (cents : ℤ) : FxDb where
  db := .deployed [{ Wallet.create 1 "USD" with balance := cents }]
  trades := []
  rates := fun base target => if base = "USD" ∧ target = "EUR" then some (9 / 10) else none
  volume := fun _ => 0
  started := []

/-- User 1 sells 100.00 USD. -/
def sale : ExecuteTradeDto where
  userId := 1
  fromCurrency := "USD"
  toCurrency := "EUR"
  fromAmount := 100

/-- The sale, with the credit before the debit. -/
theorem executeTrade_atomic_sale :
    AllOrNothing 0 sale (-10000) 9000 (market 10000)
      (settle 0 sale .none [.credit, .debit, .save] (market 10000)) := by
  have hiff : AllOrNothing 0 sale sale.debit (sale.credit ((market 10000).rate sale))
      (market 10000) (settle 0 sale .none [.credit, .debit, .save] (market 10000)) ↔
      Atomic 0 sale .none [.credit, .debit, .save] (market 10000) (gain sale.debit)
        (gain (sale.credit ((market 10000).rate sale))) :=
    (executeTrade_atomic_iff rfl (by decide)).2
  have hamounts : sale.debit = -10000 ∧ sale.credit ((market 10000).rate sale) = 9000 := by
    decide +kernel
  rw [hamounts.1, hamounts.2] at hiff
  refine hiff.mpr (Or.inr (Or.inr ⟨⟨rfl, rfl⟩, ?_⟩))
  unfold LostIs
  decide +kernel

/-- Without a balance, the debit is refused and everything else is done: the
account has sold nothing for 90.00 EUR. -/
theorem executeTrade_not_atomic :
    ((settle 0 sale .none [.debit, .credit, .save] (market 0)).db.cents 1 "USD" = 0 ∧
      (settle 0 sale .none [.debit, .credit, .save] (market 0)).db.cents 1 "EUR" = 9000) ∧
    ¬ AllOrNothing 0 sale (-10000) 9000 (market 0)
      (settle 0 sale .none [.debit, .credit, .save] (market 0)) := by
  have hcents : (settle 0 sale .none [.debit, .credit, .save] (market 0)).db.cents 1 "USD" = 0 ∧
      (settle 0 sale .none [.debit, .credit, .save] (market 0)).db.cents 1 "EUR" = 9000 := by
    decide +kernel
  have hbefore : (market 0).db.cents 1 "USD" = 0 ∧ (market 0).db.cents 1 "EUR" = 0 := by
    decide +kernel
  refine ⟨hcents, ?_⟩
  rintro (htraded | hsame)
  · have husd := htraded.cents 1 "USD"
    rw [hcents.1, hbefore.1, if_pos (by decide +kernel), if_neg (by decide +kernel)] at husd
    norm_num at husd
  · have heur := hsame.cents 1 "EUR"
    rw [hcents.2, hbefore.2] at heur
    norm_num at heur

end Fx

end NexaFx
