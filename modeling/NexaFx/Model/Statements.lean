import NexaFx.Model.Database
import Mathlib.Data.List.Sort

/-!
# NexaFx — account statements

`statements/statements.service.ts`: a statement recomputes a balance from the
rows of `transactions` and `fx_trades`, and from nothing else — neither the
wallet nor the status of a row is read.

The lines of the period and the balance before it come from two functions that
list the same entries. `entries` is that list, once; the two functions differ
in the descriptions they write (`calculateBalanceBefore` writes none) and in
the dates they keep.
-/

namespace NexaFx

-- ---------------------------------------------------------------------------
-- Views
-- ---------------------------------------------------------------------------

inductive LineSource where
  | transaction
  | fx
  deriving DecidableEq

structure StatementLine where
  date : Time
  description : String
  amount : ℚ
  reference : String
  source : LineSource
  deriving DecidableEq

/-- `StatementRequest`, with its two dates parsed. -/
structure StatementRequest where
  userId : UserId
  currency : String
  fromDate : Time
  toDate : Time

/-- `StatementView`; of the user it shows the key. -/
structure StatementView where
  userId : UserId
  currency : String
  fromDate : Time
  toDate : Time
  openingBalance : ℚ
  closingBalance : ℚ
  lines : List StatementLine
  generatedAt : Time

-- ---------------------------------------------------------------------------
-- The entries of an account
-- ---------------------------------------------------------------------------

/-- `txRepository.find({ where: [{ senderId, currency }, { receiverId, currency }] })`:
a row that matches both alternatives is found once. Sorts are stable. -/
def findTransactions (transactions : List Transaction) (userId : UserId) (currency : String) :
    List Transaction :=
  (transactions.filter fun tx =>
    decide ((tx.senderId = userId ∨ tx.receiverId = userId) ∧ tx.currency = currency)).insertionSort
    fun tx tx' => tx.createdAt ≤ tx'.createdAt

/-- `fxRepository.find({ where: { userId } })`. -/
def findTrades (fxTrades : List FxTrade) (userId : UserId) : List FxTrade :=
  (fxTrades.filter fun trade => decide (trade.userId = userId)).insertionSort
    fun trade trade' => trade.executedAt ≤ trade'.executedAt

/-- `tx.senderId === userId ? -Number(tx.amount) : Number(tx.amount)`. -/
def signedAmount (userId : UserId) (tx : Transaction) : ℚ :=
  if tx.senderId = userId then -tx.amount else tx.amount

def transactionLine (description : Transaction → String) (userId : UserId) (tx : Transaction) :
    StatementLine where
  date := tx.createdAt
  description := description tx
  amount := signedAmount userId tx
  reference := tx.reference
  source := .transaction

def tradeLine (description : FxTrade → String) (trade : FxTrade) (amount : ℚ) : StatementLine where
  date := trade.executedAt
  description := description trade
  amount := amount
  reference := toString trade.id
  source := .fx

/-- The lines of a trade: its debit, its credit, both or neither. -/
def tradeLines (description : FxTrade → String) (currency : String) (trade : FxTrade) :
    List StatementLine :=
  (if trade.fromCurrency = currency then [tradeLine description trade (-trade.fromAmount)]
    else []) ++
  (if trade.toCurrency = currency then [tradeLine description trade trade.toAmount] else [])

/-- Every entry of an account, of any date. -/
def entries (describe : Transaction → String) (describeTrade : FxTrade → String)
    (transactions : List Transaction) (fxTrades : List FxTrade) (userId : UserId)
    (currency : String) : List StatementLine :=
  (findTransactions transactions userId currency).map (transactionLine describe userId) ++
  (findTrades fxTrades userId).flatMap (tradeLines describeTrade currency)

def transferDescription (userId : UserId) (tx : Transaction) : String :=
  if tx.senderId = userId then "Transfer to " ++ toString tx.receiverId
  else "Transfer from " ++ toString tx.senderId

def tradeDescription (trade : FxTrade) : String :=
  "FX trade: " ++ trade.fromCurrency ++ " -> " ++ trade.toCurrency

-- ---------------------------------------------------------------------------
-- The statement
-- ---------------------------------------------------------------------------

section Build

variable (transactions : List Transaction) (fxTrades : List FxTrade)

/-- `reduce((sum, line) => sum + line.amount, 0)`. -/
def sumAmounts (lines : List StatementLine) : ℚ :=
  lines.foldl (fun sum line => sum + line.amount) 0

def collectStatementLines (userId : UserId) (currency : String) (fromDate toDate : Time) :
    List StatementLine :=
  ((entries (transferDescription userId) tradeDescription transactions fxTrades userId
    currency).filter fun line => decide (fromDate ≤ line.date ∧ line.date ≤ toDate)).insertionSort
    fun left right => left.date ≤ right.date

def calculateBalanceBefore (userId : UserId) (currency : String) (before : Time) : ℚ :=
  sumAmounts ((entries (fun _ => "") (fun _ => "") transactions fxTrades userId currency).filter
    fun entry => decide (entry.date < before))

end Build

/-- What `buildStatement` returns for a user it finds. -/
def Db.statementView (db : Db) (fxTrades : List FxTrade) (request : StatementRequest) :
    StatementView :=
  let lines := collectStatementLines db.transactions fxTrades request.userId request.currency
    request.fromDate request.toDate
  let openingBalance := calculateBalanceBefore db.transactions fxTrades request.userId
    request.currency request.fromDate
  { userId := request.userId
    currency := String.ofList (toUpperCase request.currency.toList)
    fromDate := request.fromDate
    toDate := request.toDate
    openingBalance := openingBalance
    closingBalance := openingBalance + sumAmounts lines
    lines := lines
    generatedAt := db.now }

/-- `StatementsService.buildStatement` on the stored transactions and trades. -/
def Db.buildStatement (db : Db) (fxTrades : List FxTrade) (request : StatementRequest) :
    Except Err StatementView :=
  if db.userExists request.userId then .ok (db.statementView fxTrades request)
  else .error (.notFound ("User " ++ toString request.userId ++ " not found"))

-- ---------------------------------------------------------------------------
-- Sums of entries
-- ---------------------------------------------------------------------------

theorem sumAmounts_eq (lines : List StatementLine) :
    sumAmounts lines = (lines.map StatementLine.amount).sum := by
  have hacc : ∀ (ls : List StatementLine) (acc : ℚ),
      ls.foldl (fun sum line => sum + line.amount) acc =
        acc + (ls.map StatementLine.amount).sum := by
    intro ls
    induction ls with
    | nil => intro acc; simp
    | cons l ls ih =>
      intro acc
      rw [List.foldl_cons, ih, List.map_cons, List.sum_cons, add_assoc]
  rw [sumAmounts, hacc, zero_add]

/-- The order of the lines does not matter to their sum. -/
theorem sumAmounts_perm {lines lines' : List StatementLine} (h : lines.Perm lines') :
    sumAmounts lines = sumAmounts lines' := by
  rw [sumAmounts_eq, sumAmounts_eq]
  exact (h.map StatementLine.amount).sum_eq

/-- What a description says has no bearing on dates and amounts. -/
theorem entries_dated (describe describe' : Transaction → String)
    (describeTrade describeTrade' : FxTrade → String) (transactions : List Transaction)
    (fxTrades : List FxTrade) (userId : UserId) (currency : String) :
    (entries describe describeTrade transactions fxTrades userId currency).map
        (fun l => (l.date, l.amount)) =
      (entries describe' describeTrade' transactions fxTrades userId currency).map
        (fun l => (l.date, l.amount)) := by
  have htrade : ∀ trade, (tradeLines describeTrade currency trade).map
      (fun l => (l.date, l.amount)) = (tradeLines describeTrade' currency trade).map
      (fun l => (l.date, l.amount)) := by
    intro trade
    unfold tradeLines
    split <;> split <;> rfl
  simp only [entries, List.map_append, List.map_map, List.map_flatMap, htrade]
  rfl

/-- The sum of the entries whose date satisfies `p`, from dates and amounts alone. -/
theorem sumAmounts_filter_date (p : Time → Bool) (lines : List StatementLine) :
    sumAmounts (lines.filter fun l => p l.date) =
      (((lines.map fun l => (l.date, l.amount)).filter fun e => p e.1).map Prod.snd).sum := by
  rw [sumAmounts_eq, List.filter_map, List.map_map]
  rfl

/-- The opening balance sums the entries that a statement would list before. -/
theorem calculateBalanceBefore_eq (transactions : List Transaction) (fxTrades : List FxTrade)
    (userId : UserId) (currency : String) (before : Time) :
    calculateBalanceBefore transactions fxTrades userId currency before =
      sumAmounts ((entries (transferDescription userId) tradeDescription transactions fxTrades
        userId currency).filter fun line => decide (line.date < before)) := by
  have hleft := sumAmounts_filter_date (fun d => decide (d < before))
    (entries (fun _ => "") (fun _ => "") transactions fxTrades userId currency)
  have hright := sumAmounts_filter_date (fun d => decide (d < before))
    (entries (transferDescription userId) tradeDescription transactions fxTrades userId currency)
  rw [calculateBalanceBefore, hleft, hright,
    entries_dated (fun _ => "") (transferDescription userId) (fun _ => "") tradeDescription]

/-- Entries with dates on either side of a split are summed separately. -/
theorem sumAmounts_filter_or {p q : Time → Bool} (h : ∀ d, ¬ (p d = true ∧ q d = true))
    (lines : List StatementLine) :
    sumAmounts (lines.filter fun l => p l.date || q l.date) =
      sumAmounts (lines.filter fun l => p l.date) +
      sumAmounts (lines.filter fun l => q l.date) := by
  simp only [sumAmounts_eq]
  induction lines with
  | nil => simp
  | cons l ls ih =>
    have hl := h l.date
    cases hp : p l.date <;> cases hq : q l.date <;> simp_all <;> ring

end NexaFx
