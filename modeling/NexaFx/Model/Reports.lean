import NexaFx.Lib.JsNumber
import NexaFx.Model.CsvExports

/-!
# Searches, exports and fee reports

`search` of `modules/transactions/services/transactions.service.ts`,
`exportTransactions` of `modules/export/services/export.service.ts` and
`generate` of `modules/fee-reports/services/fee-reports.service.ts`, as
functions of the rows of `transactions`.

The database is a parameter (`Database`): which rows a full-text query matches,
how it ranks them, and the order it gives rows of one sort key. So are the
aliases of a user's wallets, the texts of a row's properties, and the
arithmetic of dates. The columns that none of this reads are of the type `F`.
-/

namespace NexaFx

namespace Reports

/-- What can stand at a key of a `jsonb` column. -/
inductive Json where
  | null
  | bool (b : Bool)
  | num (x : Js.Num)
  | str (s : String)
  /-- An array or object, with what `Number` makes of it. -/
  | composite (x : Js.Num)
  deriving DecidableEq

def Json.truthy : Json → Bool
  | .null => false
  | .bool b => b
  | .num x => x ≠ .fin 0 && x ≠ .nan
  | .str s => s ≠ ""
  | .composite _ => true

/-- `Number(value)` -/
def Json.number : Json → Js.Num
  | .null => .fin 0
  | .bool b => if b then .fin 1 else .fin 0
  | .num x => x
  | .str s => Js.number s.toList
  | .composite x => x

/-- The addresses in `metadata` and `payload`. -/
structure Addresses where
  fromAddress : Option String
  toAddress : Option String
  walletAddress : Option String
  deriving DecidableEq

structure Metadata where
  addresses : Addresses
  fee : Option Json
  deriving DecidableEq

structure TransactionEntity (F : Type) where
  id : ℕ
  amount : ℚ
  currency : String
  status : String
  description : Option String
  metadata : Option Metadata
  payload : Option Addresses
  walletId : Option String
  categoryId : Option ℕ
  createdAt : Time
  rest : F
  deriving DecidableEq

inductive OrderBy where
  | rank (q : String)
  | amount (descending : Bool)
  | createdAt (descending : Bool)
  | none
  deriving DecidableEq

variable {F : Type}

/-- The rows of the table, by primary key. -/
structure Table (F : Type) where
  rows : Finset (TransactionEntity F)
  ids : Set.InjOn TransactionEntity.id (rows : Set (TransactionEntity F))

/-- Ascending in this number. -/
def OrderBy.key (rank : String → TransactionEntity F → ℚ) (tx : TransactionEntity F) : OrderBy → ℚ
  | .rank q => -rank q tx
  | .amount descending => if descending then -tx.amount else tx.amount
  | .createdAt descending => if descending then -(tx.createdAt : ℚ) else tx.createdAt
  | .none => 0

structure Database (F : Type) where
  /-- `search_vector @@ websearch_to_tsquery('simple', q)` -/
  matchesText : String → TransactionEntity F → Bool
  /-- `ts_rank` -/
  rank : String → TransactionEntity F → ℚ
  sort : OrderBy → Finset (TransactionEntity F) → List (TransactionEntity F)
  perm : ∀ order rows, (sort order rows : Multiset (TransactionEntity F)) = rows.val
  sorted : ∀ order rows, (sort order rows).Pairwise fun a b => order.key rank a ≤ order.key rank b

inductive Thrown where
  /-- The database rejects a negative limit or offset. -/
  | database
  deriving DecidableEq

/-- `take(limit).skip(offset)`; a limit of 0 is none. -/
def page (limit offset : ℤ) (rows : List (TransactionEntity F)) :
    Except Thrown (List (TransactionEntity F)) :=
  if limit < 0 || offset < 0 then .error .database
  else
    let rows := rows.drop offset.toNat
    .ok (if limit = 0 then rows else rows.take limit.toNat)

/-! ## `search` -/

structure SearchTransactionsDto where
  page : Option ℤ
  limit : Option ℤ
  q : Option String
  status : Option String
  currency : Option String
  «from» : Option Time
  «to» : Option Time
  categoryId : Option ℕ
  sortBy : Option String
  descending : Option Bool
  deriving DecidableEq

/-- The query text, trimmed. -/
def SearchTransactionsDto.query (dto : SearchTransactionsDto) : Option String :=
  let q := String.ofList (Js.trim (dto.q.getD "").toList)
  if q = "" then none else some q

/-- The conditions of the query; an empty status or currency is none. -/
def SearchTransactionsDto.matches (db : Database F) (dto : SearchTransactionsDto)
    (tx : TransactionEntity F) : Bool :=
  dto.query.all (db.matchesText · tx) &&
    dto.status.all (fun status => status = "" || tx.status = status) &&
    dto.currency.all (fun currency => currency = "" || tx.currency = currency) &&
    dto.from.all (· ≤ tx.createdAt) &&
    dto.«to».all (tx.createdAt ≤ ·) &&
    dto.categoryId.all (fun categoryId => tx.categoryId = some categoryId)

def SearchTransactionsDto.order (dto : SearchTransactionsDto) : OrderBy :=
  if dto.q.getD "" = "" then
    if dto.sortBy = some "amount" then .amount (dto.descending.getD true)
    else .createdAt (dto.descending.getD true)
  else
    match dto.query with
    | some q => .rank q
    | none => .none

/-- A transaction with the aliases of the addresses in it, if there are any. -/
structure Item (F : Type) where
  tx : TransactionEntity F
  walletAliases : Option (List (String × String))
  deriving DecidableEq

def Addresses.list (addresses : Addresses) : List String :=
  ([addresses.fromAddress, addresses.toAddress, addresses.walletAddress].filterMap id).filter
    (· ≠ "")

def extractWalletAddresses (tx : TransactionEntity F) : List String :=
  ((tx.metadata.elim [] fun metadata => metadata.addresses.list) ++
    tx.payload.elim [] Addresses.list).eraseDups

/-- `getWalletAliasMap(userId).get(address)` is a parameter. -/
def enrichWithWalletAliases (aliases : UserId → String → Option String) (userId : UserId)
    (transactions : List (TransactionEntity F)) : List (Item F) :=
  transactions.map fun tx =>
    let walletAliases := (extractWalletAddresses tx).filterMap fun address =>
      ((aliases userId address).filter (· ≠ "")).map (address, ·)
    { tx, walletAliases := if walletAliases = [] then none else some walletAliases }

structure SearchMeta where
  page : ℤ
  limit : ℤ
  total : ℕ
  totalPages : Js.Num
  deriving DecidableEq

structure SearchResult (F : Type) where
  success : Bool
  data : List (Item F)
  «meta» : SearchMeta
  deriving DecidableEq

/-- `Math.ceil(total / limit)` -/
def totalPages (total : ℕ) (limit : ℤ) : Js.Num :=
  if limit = 0 then (if total = 0 then .nan else .inf false)
  else .fin (⌈(total : ℚ) / limit⌉ : ℤ)

variable (db : Database F) (aliases : UserId → String → Option String)

def search (dto : SearchTransactionsDto) (userId : Option UserId) (table : Table F) :
    Except Thrown (SearchResult F) := do
  let pageNumber := dto.page.getD 1
  let limit := dto.limit.getD 20
  let offset := (pageNumber - 1) * limit
  let found := table.rows.filter fun tx => dto.matches db tx
  let items ← page limit offset (db.sort dto.order found)
  let data := match userId with
    | some userId => enrichWithWalletAliases aliases userId items
    | none => items.map fun tx => { tx, walletAliases := none }
  return {
    success := true
    data
    «meta» := { page := pageNumber, limit, total := found.card,
                totalPages := totalPages found.card limit } }

/-! ## `exportTransactions` -/

structure ExportTransactionsDto where
  csv : Bool
  «from» : Option Time
  «to» : Option Time
  deriving DecidableEq

inductive ExportResult (F : Type) where
  | csv (text : Text)
  | json (success : Bool) (data : List (Item F))
  deriving DecidableEq

/-- What `exportTransactions` asks `search` for. -/
def ExportTransactionsDto.search (dto : ExportTransactionsDto) : SearchTransactionsDto where
  page := some 1
  limit := some 10000
  q := none
  status := none
  currency := none
  «from» := dto.from
  «to» := dto.«to»
  categoryId := none
  sortBy := none
  descending := none

/-- `property tx col` is the text of a property of a row. -/
def exportTransactions (property : TransactionEntity F → Text → Option Text) (userId : UserId)
    (dto : ExportTransactionsDto) (table : Table F) : Except Thrown (ExportResult F) := do
  let result ← search db aliases dto.search (some userId) table
  if dto.csv then
    return .csv (ExportService.convertToCsv (result.data.map fun item => property item.tx)
      ExportService.transactionColumns)
  else return .json true result.data

/-! ## `generate` -/

inductive FeeReportPeriod where
  | daily
  | weekly
  | monthly
  deriving DecidableEq

structure GenerateFeeReportDto where
  period : FeeReportPeriod
  startDate : Option Time
  endDate : Option Time
  deriving DecidableEq

structure FeeReportEntity where
  userId : UserId
  period : FeeReportPeriod
  startDate : Time
  endDate : Time
  totalFees : Js.Num
  feeBreakdown : List (String × Js.Num)
  generatedAt : Time
  deriving DecidableEq

/-- A day, a week or a month before is a parameter. -/
def resolveDateRange (before : FeeReportPeriod → Time → Time) (now : Time)
    (dto : GenerateFeeReportDto) : Time × Time :=
  let endDate := dto.endDate.getD now
  (dto.startDate.getD (before dto.period endDate), endDate)

/-- `feeBreakdown[currency] = (feeBreakdown[currency] ?? 0) + fee` -/
def addTo (currency : String) (fee : Js.Num) : List (String × Js.Num) → List (String × Js.Num)
  | [] => [(currency, .add (.fin 0) fee)]
  | (c, sum) :: rest =>
    if c = currency then (c, .add sum fee) :: rest else (c, sum) :: addTo currency fee rest

/-- The fee that a row adds to its currency. -/
def feeOf (tx : TransactionEntity F) : Option Js.Num :=
  match tx.metadata.bind Metadata.fee with
  | some fee => if fee.truthy && tx.currency ≠ "" then some fee.number else none
  | none => none

def addFee (sums : Js.Num × List (String × Js.Num)) (tx : TransactionEntity F) :
    Js.Num × List (String × Js.Num) :=
  match feeOf tx with
  | some fee => (sums.1.add fee, addTo tx.currency fee sums.2)
  | none => sums

/-- `now` and `generatedAt` are its two `new Date()`. -/
def generate (before : FeeReportPeriod → Time → Time) (now generatedAt : Time) (userId : UserId)
    (dto : GenerateFeeReportDto) (table : Table F) : FeeReportEntity :=
  let (startDate, endDate) := resolveDateRange before now dto
  let transactions := db.sort (.createdAt false)
    (table.rows.filter fun tx => startDate ≤ tx.createdAt ∧ tx.createdAt ≤ endDate)
  let (totalFees, feeBreakdown) := transactions.foldl addFee (.fin 0, [])
  { userId, period := dto.period, startDate, endDate, totalFees, feeBreakdown, generatedAt }

end Reports

end NexaFx
