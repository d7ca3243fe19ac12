import NexaFx.Lib.Csv
import NexaFx.Lib.IsoDate
import NexaFx.Lib.Paging
import NexaFx.Model.Transactions

/-!
# CSV exports

The three writers of comma-separated texts: `ExportService.convertToCsv`, the
admin export job with `csvEscape`, and `TransactionsService.exportTransactionsCsv`
over `findHistory`. What the driver and the runtime print for ids and decimals
is a parameter (`Texts`); the order that `ORDER BY createdAt` gives rows of one
time is another (`Paging.OrderBy`), chosen anew by every query.
-/

namespace NexaFx

abbrev Text := List Char

/-- `array.join(',')` -/
def joinComma (fields : List Text) : Text := [','].intercalate fields

/-- `array.join('\n')` -/
def joinLine (rows : List Text) : Text := ['\n'].intercalate rows

/-- The texts of uuid and decimal columns: letters, digits and signs only. -/
structure Texts where
  uuid : ℕ → Text
  uuid_plain : ∀ n, Csv.Plain (uuid n)
  uuid_injective : Function.Injective uuid
  decimal : ℚ → Text
  decimal_plain : ∀ q, Csv.Plain (decimal q)

/-- The live rows of `transactions`, by primary key. -/
structure TransactionTable where
  rows : List Transaction
  ids : (rows.map Transaction.id).Nodup

/-! ## `modules/export/services/export.service.ts` -/

namespace ExportService

/-- One property of a row; `none` is null and undefined. -/
def csvValue (val : Option Text) : Text :=
  match val with
  | none => []
  | some str =>
    if str.contains ',' || str.contains '"' || str.contains '\n' then Csv.quote str else str

/-- A row of data is what its properties hold. -/
def convertToCsv (data : List (Text → Option Text)) (columns : List Text) : Text :=
  let header := joinComma columns
  let rows := data.map fun row => joinComma (columns.map fun col => csvValue (row col))
  joinLine (header :: rows)

/-- The columns that `exportTransactions` asks for. -/
def transactionColumns : List Text :=
  ["id", "amount", "currency", "status", "description", "createdAt"].map String.toList

/-- The columns that `exportBalances` asks for. -/
def balanceColumns : List Text :=
  ["id", "name", "type", "status", "availableBalance", "escrowBalance", "publicKey",
    "createdAt"].map String.toList

end ExportService

/-! ## `admin/exports/admin-exports.processor.ts` -/

namespace AdminExports

def BATCH_SIZE : ℕ := 1000

def columns : List Text :=
  ["id", "senderId", "receiverId", "amount", "currency", "fee", "status", "reference",
    "receiptNumber", "createdAt"].map String.toList

def CSV_HEADER : Text :=
  "id,senderId,receiverId,amount,currency,fee,status,reference,receiptNumber,createdAt".toList

/-- `/[",\n]/.test(str)` selects the fields to quote. -/
def csvEscape (value : Option Text) : Text :=
  let str := value.getD []
  if str.any fun c => c = '"' || c = ',' || c = '\n' then Csv.quote str else str

/-- The ten fields the writer puts down for a row. -/
structure Row where
  fields : List (Option Text)
  width : fields.length = 10

def writeRow (row : Row) : Text := joinComma (row.fields.map csvEscape) ++ ['\n']

/-- The file: the header and the rows, each with its line feed. -/
def file (rows : List Row) : Text := CSV_HEADER ++ '\n' :: rows.flatMap writeRow

def row (texts : Texts) (tx : Transaction) : Row where
  fields := [some (texts.uuid tx.id), some (texts.uuid tx.senderId),
    some (texts.uuid tx.receiverId), some (texts.decimal tx.amount), some tx.currency.toList,
    some (texts.decimal tx.fee), some tx.status.text.toList, some tx.reference.toList,
    tx.receiptNumber.map String.toList, some (IsoDate.toISOString tx.createdAt)]
  width := rfl

/-- `from` and `to` are the bounds on `createdAt`. -/
structure ExportTransactionsJobData where
  «from» : Time
  until' : Time
  status : Option TransactionStatus
  currency : Option String

/-- The `WHERE` of the query; an empty currency is no filter. -/
def ExportTransactionsJobData.matches (job : ExportTransactionsJobData) (tx : Transaction) : Bool :=
  job.from ≤ tx.createdAt && tx.createdAt ≤ job.until' &&
    (match job.status with
      | some status => decide (tx.status = status)
      | none => true) &&
    (match job.currency with
      | some currency => currency = "" || decide (tx.currency = currency)
      | none => true)

/-- The rows the query is about. -/
def matching (table : TransactionTable) (job : ExportTransactionsJobData) : List Transaction :=
  table.rows.filter job.matches

/-- What the job has written, and `count`. -/
structure Written where
  out : List Transaction
  count : ℕ

/-- The loop of `handle`; `page` numbers its queries, and `orderBy` is what each
of them makes of rows of one time. -/
def exportLoop (orderBy : ℕ → Paging.OrderBy Transaction.createdAt) (rows : List Transaction) :
    (fuel page skip : ℕ) → Written → Option Written
  | 0, _, _, _ => none
  | fuel + 1, page, skip, written =>
    let batch := (((orderBy page).sort rows).drop skip).take BATCH_SIZE
    if batch.length = 0 then some written
    else
      let written := { out := written.out ++ batch, count := written.count + batch.length }
      if batch.length < BATCH_SIZE then some written
      else exportLoop orderBy rows fuel (page + 1) (skip + BATCH_SIZE) written

/-- The file that `handle` stores and the row count that it mails. -/
def handle (texts : Texts) (orderBy : ℕ → Paging.OrderBy Transaction.createdAt)
    (table : TransactionTable) (job : ExportTransactionsJobData) (fuel : ℕ) : Option (Text × ℕ) :=
  (exportLoop orderBy (matching table job) fuel 0 0 ⟨[], 0⟩).map fun written =>
    (file (written.out.map (row texts)), written.count)

end AdminExports

/-! ## `transactions/transactions.service.ts` -/

namespace TransactionsService

def DEFAULT_LIMIT : ℤ := 20

def MAX_LIMIT : ℤ := 100

structure TransactionFilters where
  userId : Option UserId := none
  status : Option TransactionStatus := none
  currency : Option String := none
  receiptNumber : Option String := none
  startDate : Option Time := none
  endDate : Option Time := none
  type : Option String := none
  page : Option ℕ := none
  limit : Option ℤ := none

/-- `metadata->>'type'` -/
def metadataType : Metadata → Option String
  | .deposit => some "deposit"
  | .withdrawal _ => some "withdrawal"
  | .swap _ _ => some "swap"
  | _ => none

/-- A filter that is left out, or empty, selects every row. -/
def given {α : Type} (filter : Option α) (holds : α → Bool) : Bool :=
  match filter with
  | some a => holds a
  | none => true

def TransactionFilters.matches (filters : TransactionFilters) (tx : Transaction) : Bool :=
  given filters.userId (fun uid => tx.senderId = uid || tx.receiverId = uid) &&
    given filters.status (fun status => tx.status = status) &&
    given filters.currency (fun currency => currency = "" || tx.currency = currency) &&
    given filters.receiptNumber (fun number => number = "" || tx.receiptNumber = some number) &&
    given filters.startDate (fun start => start ≤ tx.createdAt) &&
    given filters.endDate (fun until' => tx.createdAt ≤ until') &&
    given filters.type (fun type => type = "" || metadataType tx.metadata = some type)

structure HistoryPage where
  items : List Transaction
  total : ℕ
  page : ℕ
  limit : ℕ

/-- Newest first. -/
abbrev newest (tx : Transaction) : Timeᵒᵈ := OrderDual.toDual tx.createdAt

/-- Pages count from 1. -/
def findHistory (orderBy : Paging.OrderBy newest) (table : TransactionTable)
    (filters : TransactionFilters) : HistoryPage :=
  let effectiveLimit := (min (max (filters.limit.getD DEFAULT_LIMIT) 1) MAX_LIMIT).toNat
  let page := filters.page.getD 1
  let rows := table.rows.filter filters.matches
  { items := ((orderBy.sort rows).drop ((page - 1) * effectiveLimit)).take effectiveLimit
    total := rows.length
    page := page
    limit := effectiveLimit }

def historyColumns : List Text :=
  ["id", "reference", "senderId", "receiverId", "amount", "currency", "status",
    "createdAt"].map String.toList

def header : Text := "id,reference,senderId,receiverId,amount,currency,status,createdAt\n".toList

/-- A value between quotes, as it is. -/
def between (value : Text) : Text := '"' :: value ++ ['"']

def historyRow (texts : Texts) (tx : Transaction) : Text :=
  joinComma [between (texts.uuid tx.id), between tx.reference.toList,
    between (texts.uuid tx.senderId), between (texts.uuid tx.receiverId), texts.decimal tx.amount,
    between tx.currency.toList, between tx.status.text.toList,
    between (IsoDate.toISOString tx.createdAt)]

def exportTransactionsCsv (texts : Texts) (orderBy : Paging.OrderBy newest)
    (table : TransactionTable) (userId : UserId) : Text :=
  let items := (findHistory orderBy table { userId := some userId, limit := some 1000 }).items
  header ++ joinLine (items.map (historyRow texts))

end TransactionsService

end NexaFx
