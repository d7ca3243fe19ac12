import NexaFx.Lib.Separator
import NexaFx.Model.CsvExports

/-!
# What a CSV reader makes of the exports

`convertToCsv` and `csvEscape` quote a field for a comma, a quote or a line
feed, but not for a carriage return, which ends a record as well. So both
texts are read back exactly when no field holds a carriage return without one
of the others (`csv_invertible_iff`). The history export puts values between
quotes as they are and inherits the page limit of `findHistory`: it is
complete and readable exactly for users of at most a hundred transactions
whose references and currencies hold no quote (`history_export_iff`).
-/

namespace NexaFx

open Csv

/-! ## The two encoders -/

/-- A field that is quoted if it has a character that ends it. -/
def ReadsBack (f : Text) : Prop := '\r' ∈ f → '"' ∈ f ∨ ',' ∈ f ∨ '\n' ∈ f

instance (f : Text) : Decidable (ReadsBack f) := inferInstanceAs (Decidable (_ → _))

/-- What either encoder makes of a field. -/
def encoded (f : Text) : Text := if '"' ∈ f ∨ ',' ∈ f ∨ '\n' ∈ f then quote f else f

def encodedCell (f : Text) : Cell := ⟨encoded f, f⟩

/-- Every cell of the encoders is sound or garbled. -/
theorem decided_encodedCell (f : Text) : Decided (fun c => ReadsBack c.field) (encodedCell f) := by
  unfold encodedCell encoded
  split
  · rename_i hspecial
    exact ⟨fun _ => sound_quote f, fun h => absurd (fun _ => hspecial) h⟩
  · rename_i hplain
    have hothers : ∀ c ∈ f, c ≠ '"' ∧ c ≠ ',' ∧ c ≠ '\n' := fun c hc => by
      refine ⟨?_, ?_, ?_⟩ <;> rintro rfl <;> exact hplain (by simp [hc])
    constructor
    · intro h
      refine sound_plain fun c hc => ?_
      obtain ⟨hq, hcomma, hlf⟩ := hothers c hc
      exact ⟨hq, hcomma, hlf, fun hcr => hplain (h (hcr ▸ hc))⟩
    · intro h
      exact garbled_of_cr (Classical.not_imp.mp h).1 hothers

theorem csvValue_eq (val : Option Text) :
    ExportService.csvValue val = encoded (val.getD []) := by
  cases val with
  | none => rfl
  | some str =>
    unfold ExportService.csvValue encoded
    refine if_congr ?_ rfl rfl
    simp only [Bool.or_eq_true, List.contains_iff_mem, Option.getD_some]
    tauto

theorem csvEscape_eq (value : Option Text) :
    AdminExports.csvEscape value = encoded (value.getD []) := by
  unfold AdminExports.csvEscape encoded
  refine if_congr ?_ rfl rfl
  simp only [List.any_eq_true, Bool.or_eq_true, decide_eq_true_iff]
  constructor
  · rintro ⟨c, hc, (rfl | rfl) | rfl⟩
    · exact Or.inl hc
    · exact Or.inr (Or.inl hc)
    · exact Or.inr (Or.inr hc)
  · rintro (h | h | h)
    · exact ⟨_, h, Or.inl (Or.inl rfl)⟩
    · exact ⟨_, h, Or.inl (Or.inr rfl)⟩
    · exact ⟨_, h, Or.inr rfl⟩

theorem joinComma_cells (fs : List Text) :
    joinComma (fs.map encoded) = line (fs.map encodedCell) := by
  rw [joinComma, line, List.map_map]
  rfl

theorem fields_cells (fs : List Text) : fields (fs.map encodedCell) = fs := by
  rw [fields, List.map_map]
  exact List.map_id' fs

/-- Names that no encoder would quote. -/
theorem joinComma_header {columns : List Text} (h : ∀ c ∈ columns, encoded c = c) :
    joinComma columns = line (columns.map encodedCell) := by
  rw [← joinComma_cells, List.map_congr_left h, List.map_id']

/-- The cells of the rows are decided, and so are those of the header. -/
theorem decided_cells {fss : List (List Text)} :
    ∀ row ∈ fss.map (fun fs => fs.map encodedCell), ∀ c ∈ row,
      Decided (fun c => ReadsBack c.field) c := by
  intro row hrow c hc
  obtain ⟨fs, -, rfl⟩ := List.mem_map.mp hrow
  obtain ⟨f, -, rfl⟩ := List.mem_map.mp hc
  exact decided_encodedCell f

/-- All cells are good if the fields are, the names of the header being so. -/
theorem good_cells_iff {columns : List Text} (h : ∀ c ∈ columns, ReadsBack c)
    (fss : List (List Text)) :
    (∀ row ∈ (columns :: fss).map (fun fs => fs.map encodedCell), ∀ c ∈ row, ReadsBack c.field) ↔
      ∀ fs ∈ fss, ∀ f ∈ fs, ReadsBack f := by
  simp only [List.forall_mem_map, List.forall_mem_cons, encodedCell]
  exact and_iff_right h

theorem map_fields_cells (fss : List (List Text)) :
    (fss.map fun fs => fs.map encodedCell).map fields = fss := by
  rw [List.map_map]
  exact (List.map_congr_left fun fs _ => fields_cells fs).trans (List.map_id' fss)

/-- The fields of a record of `convertToCsv`. -/
def exportedFields (columns : List Text) (row : Text → Option Text) : List Text :=
  columns.map fun col => (row col).getD []

theorem convertToCsv_eq {columns : List Text} (h : ∀ c ∈ columns, encoded c = c)
    (data : List (Text → Option Text)) :
    ExportService.convertToCsv data columns =
      joined ((columns :: data.map (exportedFields columns)).map fun fs => fs.map encodedCell) := by
  have hrow (row : Text → Option Text) :
      joinComma (columns.map fun col => ExportService.csvValue (row col)) =
        line ((exportedFields columns row).map encodedCell) := by
    rw [← joinComma_cells, exportedFields, List.map_map]
    exact congrArg joinComma (List.map_congr_left fun c _ => csvValue_eq (row c))
  rw [ExportService.convertToCsv, joinComma_header h, joinLine, joined, List.map_cons,
    List.map_cons, List.map_map, List.map_map]
  exact congrArg _ (congrArg _ (List.map_congr_left fun row _ => hrow row))

/-- The texts of `convertToCsv`, for column names that need no quotes. -/
theorem read_convertToCsv_iff {columns : List Text} (hplain : ∀ c ∈ columns, encoded c = c)
    (hback : ∀ c ∈ columns, ReadsBack c) (htwo : 2 ≤ columns.length)
    (data : List (Text → Option Text)) :
    read (ExportService.convertToCsv data columns) =
        some (columns :: data.map (exportedFields columns)) ↔
      ∀ row ∈ data, ∀ f ∈ exportedFields columns row, ReadsBack f := by
  have hwidth : ∀ r ∈ (columns :: data.map (exportedFields columns)).map
      (fun fs => fs.map encodedCell), 2 ≤ r.length := by
    intro r hr
    obtain ⟨fs, hfs, rfl⟩ := List.mem_map.mp hr
    rw [List.length_map]
    rcases List.mem_cons.mp hfs with rfl | hfs
    · exact htwo
    · obtain ⟨row, -, rfl⟩ := List.mem_map.mp hfs
      rwa [exportedFields, List.length_map]
  have hdecided := @decided_cells (columns :: data.map (exportedFields columns))
  have hread := read_joined_iff hwidth hdecided
  rw [show List.map fields (_ :: _) = _ from map_fields_cells (columns :: _)] at hread
  rw [convertToCsv_eq hplain data]
  exact hread.trans ((good_cells_iff hback _).trans List.forall_mem_map)

/-- The fields of a record of the admin export. -/
def adminFields (row : AdminExports.Row) : List Text := row.fields.map fun f => f.getD []

theorem file_eq (rows : List AdminExports.Row) :
    AdminExports.file rows =
      lines ((AdminExports.columns :: rows.map adminFields).map fun fs => fs.map encodedCell) := by
  have hrow (row : AdminExports.Row) :
      AdminExports.writeRow row = line ((adminFields row).map encodedCell) ++ ['\n'] := by
    rw [AdminExports.writeRow, ← joinComma_cells, adminFields, List.map_map]
    exact congrArg (joinComma · ++ _) (List.map_congr_left fun f _ => csvEscape_eq f)
  have hheader : AdminExports.CSV_HEADER = line (AdminExports.columns.map encodedCell) := by
    decide
  rw [AdminExports.file, hheader, List.map_cons, lines_cons, List.map_map, lines, List.flatMap_map]
  exact congrArg _ (congrArg _ (List.flatMap_congr fun row _ => hrow row))

/-- **The encoders are invertible exactly where no field holds a carriage
return alone**, with none of the characters they look for. -/
theorem csv_invertible_iff (data : List (Text → Option Text)) (rows : List AdminExports.Row) :
    (∀ columns ∈ [ExportService.transactionColumns, ExportService.balanceColumns],
      read (ExportService.convertToCsv data columns) =
          some (columns :: data.map (exportedFields columns)) ↔
        ∀ row ∈ data, ∀ f ∈ exportedFields columns row, ReadsBack f) ∧
    (read (AdminExports.file rows) = some (AdminExports.columns :: rows.map adminFields) ↔
      ∀ row ∈ rows, ∀ f ∈ adminFields row, ReadsBack f) := by
  constructor
  · intro columns hcolumns
    have hplain : ∀ columns ∈ [ExportService.transactionColumns, ExportService.balanceColumns],
        (∀ c ∈ columns, encoded c = c) ∧ (∀ c ∈ columns, ReadsBack c) ∧ 2 ≤ columns.length := by
      decide
    obtain ⟨hencoded, hback, htwo⟩ := hplain columns hcolumns
    exact read_convertToCsv_iff hencoded hback htwo data
  · have hne : ∀ r ∈ (AdminExports.columns :: rows.map adminFields).map
        (fun fs => fs.map encodedCell), r ≠ [] := by
      intro r hr
      obtain ⟨fs, hfs, rfl⟩ := List.mem_map.mp hr
      rcases List.mem_cons.mp hfs with rfl | hfs
      · exact List.cons_ne_nil _ _
      · obtain ⟨row, -, rfl⟩ := List.mem_map.mp hfs
        refine List.length_pos_iff.mp ?_
        rw [List.length_map, adminFields, List.length_map, row.width]
        omega
    have hread := read_lines_iff (P := fun c => ReadsBack c.field) hne decided_cells
    rw [map_fields_cells] at hread
    rw [file_eq]
    exact hread.trans ((good_cells_iff (by decide) _).trans List.forall_mem_map)

/-- A description with a carriage return in it is cut in two records. -/
theorem csv_cr_cut :
    read (ExportService.convertToCsv
        [fun col => if col = "description".toList then some ['a', '\r', 'b'] else none]
        ExportService.transactionColumns) ≠
      some (ExportService.transactionColumns :: [[[], [], [], [], ['a', '\r', 'b'], []]]) := by
  decide +kernel

/-! ## The history export -/

open TransactionsService

/-- The transactions a user takes part in. -/
def transactionsOf (table : TransactionTable) (userId : UserId) : List Transaction :=
  table.rows.filter fun tx => tx.senderId = userId || tx.receiverId = userId

/-- The record of a transaction, as stored. -/
def historyRecord (texts : Texts) (tx : Transaction) : Record :=
  [texts.uuid tx.id, tx.reference.toList, texts.uuid tx.senderId, texts.uuid tx.receiverId,
    texts.decimal tx.amount, tx.currency.toList, tx.status.text.toList,
    IsoDate.toISOString tx.createdAt]

def betweenCell (value : Text) : Cell := ⟨between value, value⟩

def historyCells (texts : Texts) (tx : Transaction) : List Cell :=
  [betweenCell (texts.uuid tx.id), betweenCell tx.reference.toList,
    betweenCell (texts.uuid tx.senderId), betweenCell (texts.uuid tx.receiverId),
    ⟨texts.decimal tx.amount, texts.decimal tx.amount⟩, betweenCell tx.currency.toList,
    betweenCell tx.status.text.toList, betweenCell (IsoDate.toISOString tx.createdAt)]

/-- A field that is read back when it is put between quotes as it is. -/
def NoQuote (c : Cell) : Prop := '"' ∉ c.field

theorem fields_historyCells (texts : Texts) (tx : Transaction) :
    fields (historyCells texts tx) = historyRecord texts tx := rfl

theorem historyRow_eq (texts : Texts) (tx : Transaction) :
    historyRow texts tx = line (historyCells texts tx) := rfl

/-- The items: the first hundred transactions, whatever the limit asked for. -/
theorem findHistory_items (orderBy : Paging.OrderBy newest) (table : TransactionTable)
    (userId : UserId) :
    (findHistory orderBy table { userId := some userId, limit := some 1000 }).items =
      (orderBy.sort (transactionsOf table userId)).take 100 := by
  have hmatches : ({ userId := some userId, limit := some 1000 } : TransactionFilters).matches =
      fun tx => tx.senderId = userId || tx.receiverId = userId := by
    funext tx
    simp [TransactionFilters.matches, given]
  simp [findHistory, hmatches, transactionsOf, MAX_LIMIT]

theorem decided_betweenCell (value : Text) : Decided NoQuote (betweenCell value) := by
  refine ⟨fun h => ?_, fun h => garbled_of_quote (not_not.mp h)⟩
  have hbetween : betweenCell value = ⟨quote value, value⟩ := by
    rw [betweenCell, between, quote, doubled_eq_self (f := value) h]
  exact hbetween ▸ sound_quote value

theorem decided_historyCells (texts : Texts) (tx : Transaction) :
    ∀ c ∈ historyCells texts tx, Decided NoQuote c := by
  have hamount : Decided NoQuote ⟨texts.decimal tx.amount, texts.decimal tx.amount⟩ :=
    ⟨fun _ => sound_plain (texts.decimal_plain _),
      fun h => absurd (not_not.mp h) fun hq => (texts.decimal_plain _ _ hq).1 rfl⟩
  simp only [historyCells, List.forall_mem_cons]
  exact ⟨decided_betweenCell _, decided_betweenCell _, decided_betweenCell _, decided_betweenCell _,
    hamount, decided_betweenCell _, decided_betweenCell _, decided_betweenCell _,
    fun c hc => absurd hc List.not_mem_nil⟩

theorem noQuote_historyCells {texts : Texts} {tx : Transaction} :
    (∀ c ∈ historyCells texts tx, NoQuote c) ↔
      '"' ∉ tx.reference.toList ∧ '"' ∉ tx.currency.toList := by
  have huuid (n : ℕ) : '"' ∉ texts.uuid n := fun h => (texts.uuid_plain n _ h).1 rfl
  have hdecimal (q : ℚ) : '"' ∉ texts.decimal q := fun h => (texts.decimal_plain q _ h).1 rfl
  have hstatus (s : TransactionStatus) : '"' ∉ s.text.toList := by
    cases s <;> decide
  have hiso (t : ℤ) : '"' ∉ IsoDate.toISOString t := fun h =>
    absurd (IsoDate.isoChar_toISOString t _ h) (by decide)
  simp [historyCells, NoQuote, betweenCell, huuid, hdecimal, hstatus, hiso]

/-- The rows behind the header, all of them good. -/
theorem readFrom_history {texts : Texts} {items : List Transaction}
    (hgood : ∀ tx ∈ items, ∀ c ∈ historyCells texts tx, NoQuote c) (rs : List Record) :
    readFrom (done rs) (joined (items.map (historyCells texts))) =
      some (rs ++ items.map (historyRecord texts)) := by
  match items with
  | [] =>
    rw [List.map_nil, List.map_nil, List.append_nil]
    rfl
  | tx :: items =>
    have hrows : ∀ r ∈ (tx :: items).map (historyCells texts),
        2 ≤ r.length ∧ ∀ c ∈ r, Decided NoQuote c :=
      List.forall_mem_map.mpr fun tx _ => ⟨by simp [historyCells], decided_historyCells texts tx⟩
    have hread := (readFrom_joined_iff (P := NoQuote) (fun r hr => (hrows r hr).1)
      (fun r hr => (hrows r hr).2) rs).mpr
        (List.forall_mem_map (P := fun r => ∀ c ∈ r, NoQuote c).mpr hgood)
    rw [← List.map_cons, List.map_map] at hread
    exact hread

theorem read_exportTransactionsCsv (texts : Texts) (orderBy : Paging.OrderBy newest)
    (table : TransactionTable) (userId : UserId) :
    read (exportTransactionsCsv texts orderBy table userId) =
      readFrom (done [historyColumns])
        (joined (((orderBy.sort (transactionsOf table userId)).take 100).map
          (historyCells texts))) := by
  have hheader : run header initial = some (done [historyColumns]) := by decide
  rw [exportTransactionsCsv, findHistory_items, Csv.read, readFrom_append hheader, joined,
    List.map_map]
  rfl

/-- The most recent 1000 transactions of the user, or all, are read from the
export, one record each. -/
def HistoryExported (texts : Texts) (orderBy : Paging.OrderBy newest) (table : TransactionTable)
    (userId : UserId) : Prop :=
  ∃ l, Paging.IsOrder newest (transactionsOf table userId) l ∧
    ∃ records, records.Perm ((l.take 1000).map (historyRecord texts)) ∧
      read (exportTransactionsCsv texts orderBy table userId) = some (historyColumns :: records)

/-- The records of a history are told apart by their ids. -/
theorem keyed_historyCells {texts : Texts} {table : TransactionTable} {records : List Record}
    (hrecords : ∀ x ∈ records, ∃ tx ∈ table.rows, x = historyRecord texts tx) {tx : Transaction}
    (htx : tx ∈ table.rows) : Keyed NoQuote records (historyCells texts tx) := by
  refine ⟨_, _, _, rfl, fun h => (texts.uuid_plain _ _ h).1 rfl, fun x hx hhead => ?_⟩
  obtain ⟨tx', htx', rfl⟩ := hrecords x hx
  have hid : tx'.id = tx.id := texts.uuid_injective (Option.some.inj hhead)
  rw [List.inj_on_of_nodup_map table.ids htx' htx hid]
  rfl

theorem good_of_records {texts : Texts} {items : List Transaction} {rs records : List Record}
    (hread : readFrom (done rs) (joined (items.map (historyCells texts))) = some (rs ++ records))
    (hlen : items.length ≤ records.length)
    (hkeyed : ∀ tx ∈ items, Keyed NoQuote records (historyCells texts tx)) :
    (∀ tx ∈ items, ∀ c ∈ historyCells texts tx, NoQuote c) ∧ records.length = items.length := by
  have hgood : ∀ tx ∈ items, ∀ c ∈ historyCells texts tx, NoQuote c := by
    match items with
    | [] => exact fun tx htx => absurd htx List.not_mem_nil
    | tx :: items =>
      have hrows := good_of_readFrom_joined hread (by simpa using hlen)
        (List.forall_mem_map (l := tx :: items).mpr fun tx _ => decided_historyCells texts tx)
        (List.forall_mem_map (l := tx :: items).mpr hkeyed)
      exact List.forall_mem_map (P := fun r => ∀ c ∈ r, NoQuote c).mp hrows
  rw [readFrom_history hgood] at hread
  rw [← List.append_cancel_left (Option.some.inj hread), List.length_map]
  exact ⟨hgood, rfl⟩

/-- A complete export has good cells only, and leaves out no transaction. -/
theorem good_of_exported {texts : Texts} {orderBy : Paging.OrderBy newest}
    {table : TransactionTable} {userId : UserId} (h : HistoryExported texts orderBy table userId) :
    (∀ tx ∈ (orderBy.sort (transactionsOf table userId)).take 100,
      ∀ c ∈ historyCells texts tx, NoQuote c) ∧ (transactionsOf table userId).length ≤ 100 := by
  obtain ⟨l, horder, records, hperm, hread⟩ := h
  rw [read_exportTransactionsCsv, ← List.singleton_append] at hread
  have hsort := orderBy.isOrder (transactionsOf table userId)
  have hitems : ((orderBy.sort (transactionsOf table userId)).take 100).length =
      min 100 (transactionsOf table userId).length := by
    rw [List.length_take, hsort.perm.length_eq]
  have hrecords : records.length = min 1000 (transactionsOf table userId).length := by
    rw [hperm.length_eq, List.length_map, List.length_take, horder.perm.length_eq]
  have hof : ∀ x ∈ records, ∃ tx ∈ table.rows, x = historyRecord texts tx := fun x hx => by
    obtain ⟨tx, htx, rfl⟩ := List.mem_map.mp (hperm.mem_iff.mp hx)
    exact ⟨tx, List.mem_of_mem_filter (horder.perm.mem_iff.mp (List.mem_of_mem_take htx)), rfl⟩
  obtain ⟨hgood, hcount⟩ := good_of_records hread (by omega)
    fun tx htx => keyed_historyCells hof
      (List.mem_of_mem_filter (hsort.perm.mem_iff.mp (List.mem_of_mem_take htx)))
  exact ⟨hgood, by omega⟩

/-- **The history export is complete and readable exactly for users of at
most a hundred transactions without a quote** in a reference or a currency. -/
theorem history_export_iff (texts : Texts) (orderBy : Paging.OrderBy newest)
    (table : TransactionTable) (userId : UserId) :
    HistoryExported texts orderBy table userId ↔
      (transactionsOf table userId).length ≤ 100 ∧
        ∀ tx ∈ transactionsOf table userId,
          '"' ∉ tx.reference.toList ∧ '"' ∉ tx.currency.toList := by
  have hsort := orderBy.isOrder (transactionsOf table userId)
  have htake {n : ℕ} (hshort : (transactionsOf table userId).length ≤ n) :
      (orderBy.sort (transactionsOf table userId)).take n =
        orderBy.sort (transactionsOf table userId) :=
    List.take_of_length_le (hsort.perm.length_eq.le.trans hshort)
  constructor
  · intro h
    obtain ⟨hgood, hshort⟩ := good_of_exported h
    rw [htake hshort] at hgood
    exact ⟨hshort, fun tx htx =>
      noQuote_historyCells.mp (hgood tx (hsort.perm.mem_iff.mpr htx))⟩
  · rintro ⟨hshort, hquotes⟩
    refine ⟨_, hsort, _, List.Perm.refl _, ?_⟩
    rw [read_exportTransactionsCsv, htake hshort, htake (hshort.trans (by omega))]
    exact readFrom_history (fun tx htx =>
      noQuote_historyCells.mpr (hquotes tx (hsort.perm.mem_iff.mp htx))) [historyColumns]

theorem plain_numeral (width n : ℕ) :
    Csv.Plain (List.leftpad width '0' (Nat.toDigits 10 n)) := by
  intro c hc
  have hdigit : c.isDigit = true := by
    unfold List.leftpad at hc
    rcases List.mem_append.mp hc with hzero | hc
    · rw [List.eq_of_mem_replicate hzero]
      decide
    · exact Nat.isDigit_of_mem_toDigits (by decide) le_rfl hc
  refine ⟨?_, ?_, ?_, ?_⟩ <;> rintro rfl <;> revert hdigit <;> decide

theorem plain_append {f g : Text} (hf : Csv.Plain f) (hg : Csv.Plain g) : Csv.Plain (f ++ g) :=
  List.forall_mem_append.mpr ⟨hf, hg⟩

/-- The texts of the driver: ids told apart by the last group, and the eight
decimals of a `decimal(20,8)` column. -/
def driverTexts : Texts where
  uuid n := "00000000-0000-4000-8000-".toList ++ List.leftpad 12 '0' (Nat.toDigits 10 n)
  uuid_plain n := plain_append (by decide) (plain_numeral 12 n)
  uuid_injective _ _ h := Separator.leftpad_toDigits_injective (List.append_cancel_left h)
  decimal q :=
    let units := (Decimal.roundHalfAway (q * 10 ^ 8)).natAbs
    (if q < 0 then ['-'] else []) ++ List.leftpad 1 '0' (Nat.toDigits 10 (units / 10 ^ 8)) ++
      ['.'] ++ List.leftpad 8 '0' (Nat.toDigits 10 (units % 10 ^ 8))
  decimal_plain q := by
    refine plain_append (plain_append (plain_append ?_ (plain_numeral 1 _)) (by decide))
      (plain_numeral 8 _)
    split <;> decide

example : driverTexts.decimal (-25 / 2) = "-12.50000000".toList := by decide +kernel

/-- A transaction whose reference is one quote. -/
def quotedTransaction : Transaction where
  id := 1
  senderId := 0
  receiverId := 2
  amount := 100
  currency := "USD"
  fee := 0
  status := .completed
  reference := "\""
  receiptNumber := none
  metadata := .transfer
  createdAt := 0
  completedAt := none
  reversedAt := none
  pendingTimeoutAt := none
  reversedBy := none
  reversalReason := none
  reversalTransactionId := none
  retryCount := 0

/-- Its export is not readable. -/
theorem history_quote_unreadable :
    ¬ HistoryExported driverTexts (Paging.OrderBy.stable newest)
      ⟨[quotedTransaction], by decide⟩ 0 := by
  intro h
  obtain ⟨hgood, -⟩ := good_of_exported h
  have hsort := ((Paging.OrderBy.stable newest).isOrder [quotedTransaction]).perm
  have htx : quotedTransaction ∈
      ((Paging.OrderBy.stable newest).sort [quotedTransaction]).take 100 := by
    rw [List.perm_singleton.mp hsort]
    exact List.mem_cons_self
  exact (noQuote_historyCells.mp (hgood _ htx)).1 (by decide)

end NexaFx
