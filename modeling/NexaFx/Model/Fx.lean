import NexaFx.Lib.Pool
import NexaFx.Model.Wallets

/-!
# NexaFx — currency exchange

`executeTrade` and `reverseTrade` of `fx/fx.service.ts`, await by await.

Both start two `adjustBalance` calls that they do not await. Such a pair is
kept in `started`, under the identity of the call that started it; each of its
two parts is carried out by an event of its own, at any later time, or fails
(`runAdjust`). What becomes of a part is seen by nobody: the promise is not
looked at.

`dataSource.transaction` publishes the trade with its `commit`; the wallets
and the volume counter are not part of it. The identity of a trade is that of
the call that makes it. The rate that the rate service would return for a pair
is part of the state.
-/

namespace NexaFx

open Async Decimal

namespace Fx

-- ---------------------------------------------------------------------------
-- The state
-- ---------------------------------------------------------------------------

/-- One `adjustBalance` call; `carried` once it has ended. -/
structure Adjustment where
  accountId : UserId
  currency : String
  delta : ℚ
  carried : Option Bool
  deriving DecidableEq

inductive Side where
  | first
  | second
  deriving DecidableEq

/-- The two `adjustBalance` calls that `call` has started for a trade. -/
structure Started where
  call : ℕ
  trade : ℕ
  first : Adjustment
  second : Adjustment
  deriving DecidableEq

def Started.part (s : Started) : Side → Adjustment
  | .first => s.first
  | .second => s.second

def Adjustment.settle (adj : Adjustment) (ok : Bool) : Adjustment := { adj with carried := some ok }

def Started.settle (s : Started) (ok : Bool) : Side → Started
  | .first => { s with first := s.first.settle ok }
  | .second => { s with second := s.second.settle ok }

structure FxDb where
  db : Db
  trades : List FxTrade
  rates : String → String → Option ℚ
  /-- `volumeTracker`; a missing key counts as `0`. -/
  volume : String → ℚ
  started : List Started

namespace FxDb

/-- `findOne({ where: { id } })`. -/
def trade (st : FxDb) (id : ℕ) : Option FxTrade := Table.get FxTrade.id st.trades id

def putTrade (st : FxDb) (trade : FxTrade) : FxDb :=
  { st with trades := Table.put FxTrade.id trade st.trades }

def startedBy (st : FxDb) (call : ℕ) : Option Started := Table.get Started.call st.started call

def putStarted (st : FxDb) (s : Started) : FxDb :=
  { st with started := Table.put Started.call s st.started }

/-- `volumeTracker.set(pairKey, (volumeTracker.get(pairKey) || 0) + amount)`. -/
def addVolume (st : FxDb) (pairKey : String) (amount : ℚ) : FxDb :=
  { st with volume := Function.update st.volume pairKey (st.volume pairKey + amount) }

/-- An `adjustBalance` call of `s` runs to its end; it throws when `fails`, or by
itself. -/
def carryOut (st : FxDb) (s : Started) (side : Side) (fails : Bool) : Bool × Db :=
  if fails then (false, st.db)
  else
    match st.db.adjustBalance s.call s.trade (s.part side).accountId (s.part side).currency
      (s.part side).delta with
    | .ok (_, db) => (true, db)
    | .error _ => (false, st.db)

/-- One part of what `call` started, if it has not ended yet. -/
def runAdjust (st : FxDb) (call : ℕ) (side : Side) (fails : Bool) : FxDb :=
  match st.startedBy call with
  | none => st
  | some s =>
    match (s.part side).carried with
    | some _ => st
    | none =>
      { st.putStarted (s.settle (st.carryOut s side fails).1 side) with
        db := (st.carryOut s side fails).2 }

end FxDb

-- ---------------------------------------------------------------------------
-- Commands
-- ---------------------------------------------------------------------------

inductive FxCmd where
  | getRate (base target : String)
  | findTrade (id : ℕ)
  /-- `new Date()`, synchronous like `startAdjusts` and `addVolume`. -/
  | now
  | startTransaction
  /-- Two `adjustBalance` calls, one after the other, that are not awaited. -/
  | startAdjusts (s : Started)
  | addVolume (pairKey : String) (amount : ℚ)
  /-- `manager.save(FxTrade, trade)`; a new row gets its `executedAt`. -/
  | managerSave (trade : FxTrade)
  | commit (trade : FxTrade)
  | runAdjust (call : ℕ) (side : Side) (fails : Bool)
  /-- Time passes. -/
  | tick (ms : ℕ)
  deriving DecidableEq

@[reducible] def FxCmd.Reply : FxCmd → Type
  | .getRate _ _ => ℚ
  | .findTrade _ => Option FxTrade
  | .now => Time
  | .managerSave _ => FxTrade
  | _ => Unit

def exec : (c : FxCmd) → FxDb → Except Err (c.Reply × FxDb)
  | .getRate base target, st =>
    match st.rates base target with
    | some rate => .ok (rate, st)
    | none => .error (.unavailable "Exchange rate providers are currently unavailable")
  | .findTrade id, st => .ok (st.trade id, st)
  | .now, st => .ok (st.db.now, st)
  | .startTransaction, st => .ok ((), st)
  | .startAdjusts s, st => .ok ((), st.putStarted s)
  | .addVolume pairKey amount, st => .ok ((), st.addVolume pairKey amount)
  | .managerSave trade, st =>
    match st.trade trade.id with
    | some _ => .ok (trade, st)
    | none => .ok ({ trade with executedAt := st.db.now }, st)
  | .commit trade, st => .ok ((), st.putTrade trade)
  | .runAdjust call side fails, st => .ok ((), st.runAdjust call side fails)
  | .tick ms, st => .ok ((), { st with db := { st.db with now := st.db.now + ms } })

/-- What fails on its own account fails by its `fails`. -/
def mayFail : FxCmd → Bool
  | .getRate _ _ | .findTrade _ | .startTransaction | .managerSave _ | .commit _ => true
  | _ => false

-- ---------------------------------------------------------------------------
-- The service
-- ---------------------------------------------------------------------------

abbrev FxProc := Proc FxCmd FxCmd.Reply Err

abbrev await (c : FxCmd) : FxProc c.Reply := Proc.call c

/-- `ExecuteTradeDto`. -/
structure ExecuteTradeDto where
  userId : UserId
  fromCurrency : String
  toCurrency : String
  fromAmount : ℚ
  deriving DecidableEq

/-- `parseFloat((dto.fromAmount * rate).toFixed(8))`. -/
def ExecuteTradeDto.toAmount (dto : ExecuteTradeDto) (rate : ℚ) : ℚ :=
  toFixed 8 (dto.fromAmount * rate)

def ExecuteTradeDto.pairKey (dto : ExecuteTradeDto) : String :=
  String.ofList (toUpperCase dto.fromCurrency.toList) ++ "/" ++
    String.ofList (toUpperCase dto.toCurrency.toList)

/-- The adjustments of `executeTrade`. -/
def ExecuteTradeDto.adjusts (dto : ExecuteTradeDto) (i : ℕ) (rate : ℚ) : Started where
  call := i
  trade := i
  first := ⟨dto.userId, dto.fromCurrency, -dto.fromAmount, none⟩
  second := ⟨dto.userId, dto.toCurrency, dto.toAmount rate, none⟩

/-- `manager.create(FxTrade, ...)`. -/
def ExecuteTradeDto.create (dto : ExecuteTradeDto) (i : ℕ) (rate : ℚ) : FxTrade where
  id := i
  userId := dto.userId
  fromCurrency := dto.fromCurrency
  toCurrency := dto.toCurrency
  fromAmount := dto.fromAmount
  toAmount := dto.toAmount rate
  rate := rate
  executedAt := 0
  reversedAt := none

/-- `executeTrade` up to its last `await`: the two adjustments are under way and
the volume is counted. -/
def tradeStart (i : ℕ) (dto : ExecuteTradeDto) : FxProc FxTrade := do
  let rate ← await (.getRate dto.fromCurrency dto.toCurrency)
  await .startTransaction
  await (.startAdjusts (dto.adjusts i rate))
  await (.addVolume dto.pairKey dto.fromAmount)
  return dto.create i rate

/-- `return manager.save(FxTrade, trade)`, and the commit. -/
def tradeSave (trade : FxTrade) : FxProc FxTrade := do
  let saved ← await (.managerSave trade)
  await (.commit saved)
  return saved

def executeTrade (i : ℕ) (dto : ExecuteTradeDto) : FxProc FxTrade := do
  let trade ← tradeStart i dto
  tradeSave trade

/-- The adjustments of `reverseTrade`. -/
def reversalAdjusts (trade : FxTrade) (i : ℕ) : Started where
  call := i
  trade := trade.id
  first := ⟨trade.userId, trade.fromCurrency, trade.fromAmount, none⟩
  second := ⟨trade.userId, trade.toCurrency, -trade.toAmount, none⟩

/-- `(Date.now() - new Date(trade.executedAt).getTime()) / 60_000`. -/
def elapsed (trade : FxTrade) (t : Time) : ℚ := ((t : ℚ) - trade.executedAt) / 60000

/-- `reverseTrade` from the row it found on. -/
def reverseFound (i : ℕ) (windowMinutes : ℕ) (trade : FxTrade) : FxProc FxTrade := do
  Proc.rejectWhen (trade.reversedAt.isSome = true)
    (.unprocessable "Trade has already been reversed")
  let t ← await .now
  Proc.rejectWhen ((windowMinutes : ℚ) < elapsed trade t)
    (.unprocessable ("Reversal window of " ++ toString windowMinutes ++ " minutes has expired"))
  await .startTransaction
  await (.startAdjusts (reversalAdjusts trade i))
  let t' ← await .now
  tradeSave { trade with reversedAt := some t' }

def reverseTrade (i : ℕ) (windowMinutes : ℕ) (id : ℕ) : FxProc FxTrade := do
  match ← await (.findTrade id) with
  | none => Proc.throw (.notFound ("FX trade " ++ toString id ++ " not found"))
  | some trade => reverseFound i windowMinutes trade

/-- A call of the service. An adjustment that was not awaited, and the clock,
take their steps as calls of their own. The time in `reverse` is ghost: when
the call is made. -/
inductive FxCall where
  | execute (dto : ExecuteTradeDto)
  | reverse (id : ℕ) (madeAt : Time)
  | adjust (call : ℕ) (side : Side) (fails : Bool)
  | tick (ms : ℕ)
  deriving DecidableEq

/-- The method behind a call; `none` is no method. -/
def prog (windowMinutes : ℕ) (i : ℕ) : FxCall → FxProc (Option FxTrade)
  | .execute dto => do return some (← executeTrade i dto)
  | .reverse id _ => do return some (← reverseTrade i windowMinutes id)
  | .adjust call side fails => do
    await (.runAdjust call side fails)
    return none
  | .tick ms => do
    await (.tick ms)
    return none

/-- All calls of the service and what they have started, interleaved. -/
def server (windowMinutes : ℕ) :
    System FxCall FxCmd FxCmd.Reply Err FxDb (Option FxTrade) where
  prog := prog windowMinutes
  exec := exec
  mayFail := mayFail

abbrev FxConfig := Config FxCall FxCmd FxCmd.Reply Err FxDb (Option FxTrade)

-- ---------------------------------------------------------------------------
-- What an adjustment does
-- ---------------------------------------------------------------------------

/-- The balance change that a carried adjustment of `s` has made, if any. -/
def Started.moves (s : Started) (side : Side) : List Move :=
  if (s.part side).delta = 0 then [] else
    [⟨s.call, s.trade, (s.part side).accountId, normalizeCurrencyCode (s.part side).currency,
      shift (100 * (s.part side).delta)⟩]

/-- The adjustment is accepted: the currency is supported and the balance covers
it. -/
def FxDb.Accepts (st : FxDb) (s : Started) (side : Side) : Prop :=
  validateCurrency (s.part side).currency = .ok (normalizeCurrencyCode (s.part side).currency) ∧
    st.db.Covers (s.part side).accountId (s.part side).currency (s.part side).delta

theorem carryOut_spec (st : FxDb) (s : Started) (side : Side) (fails : Bool) :
    ((st.carryOut s side fails).1 = true ∧ fails = false ∧ st.Accepts s side ∧
      st.db.Adjusted s.call s.trade (s.part side).accountId (s.part side).currency
        (s.part side).delta (st.carryOut s side fails).2) ∨
    ((st.carryOut s side fails).1 = false ∧ (fails = true ∨ ¬ st.Accepts s side) ∧
      (st.carryOut s side fails).2 = st.db) := by
  unfold FxDb.carryOut
  cases fails with
  | true => exact Or.inr ⟨rfl, Or.inl rfl, rfl⟩
  | false =>
    rw [if_neg Bool.false_ne_true]
    cases hadjust : st.db.adjustBalance s.call s.trade (s.part side).accountId
        (s.part side).currency (s.part side).delta with
    | ok r =>
      have hadj := Db.adjustBalance_ok hadjust
      exact Or.inl ⟨rfl, rfl, ⟨hadj.supported, hadj.covered⟩, hadj⟩
    | error e =>
      refine Or.inr ⟨rfl, Or.inr ?_, rfl⟩
      rintro ⟨hsupported, hcovered⟩
      obtain ⟨b, db', hok⟩ := Db.adjustBalance_accepts s.call s.trade hsupported hcovered
      rw [hok] at hadjust
      cases hadjust

theorem carryOut_now (st : FxDb) (s : Started) (side : Side) (fails : Bool) :
    (st.carryOut s side fails).2.now = st.db.now := by
  rcases carryOut_spec st s side fails with ⟨-, -, -, hadj⟩ | ⟨-, -, hsame⟩
  · obtain ⟨ws, ms, hrest⟩ := hadj.rest
    rw [hrest]
  · rw [hsame]

/-- Nothing is to be done. -/
theorem runAdjust_idle {st : FxDb} {call : ℕ} (side : Side) (fails : Bool)
    (h : ∀ s, st.startedBy call = some s → (s.part side).carried.isSome = true) :
    st.runAdjust call side fails = st := by
  unfold FxDb.runAdjust
  cases hs : st.startedBy call with
  | none => rfl
  | some s =>
    cases hcarried : (s.part side).carried with
    | some ok => simp only [hcarried]
    | none =>
      have hsome := h s hs
      rw [hcarried] at hsome
      cases hsome

theorem runAdjust_eq {st : FxDb} {call : ℕ} {s : Started} {side : Side} (fails : Bool)
    (hs : st.startedBy call = some s) (hopen : (s.part side).carried = none) :
    st.runAdjust call side fails =
      { st.putStarted (s.settle (st.carryOut s side fails).1 side) with
        db := (st.carryOut s side fails).2 } := by
  unfold FxDb.runAdjust
  simp only [hs, hopen]

/-- There is an adjustment to run, or there is none. -/
theorem runAdjust_cases (st : FxDb) (call : ℕ) (side : Side) (fails : Bool) :
    (∃ s, st.startedBy call = some s ∧ (s.part side).carried = none ∧
      st.runAdjust call side fails =
        { st.putStarted (s.settle (st.carryOut s side fails).1 side) with
          db := (st.carryOut s side fails).2 }) ∨
    ((∀ s, st.startedBy call = some s → (s.part side).carried.isSome = true) ∧
      st.runAdjust call side fails = st) := by
  by_cases hopen : ∃ s, st.startedBy call = some s ∧ (s.part side).carried = none
  · obtain ⟨s, hs, hnone⟩ := hopen
    exact Or.inl ⟨s, hs, hnone, runAdjust_eq fails hs hnone⟩
  · have hidle : ∀ s, st.startedBy call = some s → (s.part side).carried.isSome = true := by
      intro s hs
      rw [Option.isSome_iff_ne_none]
      exact fun hnone => hopen ⟨s, hs, hnone⟩
    exact Or.inr ⟨hidle, runAdjust_idle side fails hidle⟩

end Fx

end NexaFx
