import NexaFx.Model.Reports

/-!
# Whose transactions the reports are made of

The queries of `search`, `exportTransactions` and `generate` have no condition
on the user. `reports_own_iff` says on which requests the answers depend on the
caller's transactions only: those that match nothing of others, or are
rejected.

Whose a transaction is depends on its wallet, and perhaps on columns that the
queries do not read (`Ownership`).
-/

namespace NexaFx

namespace Reports

variable {F α : Type}

/-! ## Answers that depend on some rows only -/

/-- The tables have the same rows among those that `own` holds of. -/
def Agree (own : TransactionEntity F → Prop) (s s' : Table F) : Prop :=
  ∀ tx, own tx → (tx ∈ s.rows ↔ tx ∈ s'.rows)

def DependsOnly (own : TransactionEntity F → Prop) (answer : Table F → α) : Prop :=
  ∀ s s', Agree own s s' → answer s = answer s'

def Table.empty : Table F where
  rows := ∅
  ids := by simp

def Table.single (tx : TransactionEntity F) : Table F where
  rows := {tx}
  ids := by simp

variable {own : TransactionEntity F → Prop}

/-- A row that `own` does not hold of makes no difference to an answer that
depends on `own` only. -/
theorem DependsOnly.single {answer : Table F → α} (h : DependsOnly own answer)
    {tx : TransactionEntity F} (hother : ¬ own tx) : answer .empty = answer (.single tx) := by
  refine h _ _ fun x hx => ?_
  have hne : x ≠ tx := by
    rintro rfl
    exact hother hx
  simp [Table.empty, Table.single, hne]

/-- What a query that finds only such rows finds. -/
theorem Agree.filter_eq {s s' : Table F} (h : Agree own s s') {p : TransactionEntity F → Prop}
    [DecidablePred p] (hp : ∀ tx, p tx → own tx) : s.rows.filter p = s'.rows.filter p := by
  ext tx
  rw [Finset.mem_filter, Finset.mem_filter]
  exact and_congr_left fun hmatches => h tx (hp tx hmatches)

theorem Database.sort_empty (db : Database F) (order : OrderBy) : db.sort order ∅ = [] :=
  Multiset.coe_eq_zero _ |>.mp (db.perm order ∅)

theorem Database.sort_single (db : Database F) (order : OrderBy) (tx : TransactionEntity F) :
    db.sort order {tx} = [tx] :=
  Multiset.coe_eq_singleton.mp (db.perm order {tx})

/-! ## Owners -/

/-- The wallets (and other columns) that make a transaction a user's. No user
has all of them. -/
structure Ownership (F : Type) where
  owns : UserId → Option String → F → Prop
  others : ∀ userId, ∃ walletId rest, ¬ owns userId walletId rest

def Ownership.Belongs (ownership : Ownership F) (userId : UserId) (tx : TransactionEntity F) :
    Prop :=
  ownership.owns userId tx.walletId tx.rest

/-- At any time, others may pay fees. -/
theorem Ownership.exists_other (ownership : Ownership F) (userId : UserId) (time : Time) :
    ∃ tx, ¬ ownership.Belongs userId tx ∧ tx.createdAt = time ∧ feeOf tx = some (.fin 1) := by
  obtain ⟨walletId, rest, hother⟩ := ownership.others userId
  refine ⟨{ id := 0, amount := 1, currency := "USD", status := "SUCCESS", description := none,
            metadata := some ⟨⟨none, none, none⟩, some (.num (.fin 1))⟩, payload := none,
            walletId, categoryId := none, createdAt := time, rest }, hother, rfl, ?_⟩
  have htruthy : ((Json.num (.fin 1)).truthy && "USD" ≠ "") = true := by decide
  show (if (Json.num (.fin 1)).truthy && "USD" ≠ "" then some (Json.num (.fin 1)).number
    else none) = _
  rw [if_pos htruthy]
  rfl

/-! ## The three answers -/

section Answers

variable (db : Database F) (aliases : UserId → String → Option String)
  (property : TransactionEntity F → Text → Option Text)
  (before : FeeReportPeriod → Time → Time) (now generatedAt : Time)

/-- The database rejects the page. -/
def SearchTransactionsDto.Rejected (dto : SearchTransactionsDto) : Prop :=
  dto.limit.getD 20 < 0 ∨ (dto.page.getD 1 - 1) * dto.limit.getD 20 < 0

/-- What `search` asks for. -/
def SearchTransactionsDto.found (dto : SearchTransactionsDto) (table : Table F) :
    Finset (TransactionEntity F) :=
  table.rows.filter fun tx => dto.matches db tx = true

theorem search_rejected {dto : SearchTransactionsDto} (h : dto.Rejected) (userId : Option UserId)
    (table : Table F) : search db aliases dto userId table = .error .database := by
  have hpage (rows : List (TransactionEntity F)) :
      page (dto.limit.getD 20) ((dto.page.getD 1 - 1) * dto.limit.getD 20) rows =
        .error .database := if_pos (by simpa [SearchTransactionsDto.Rejected] using h)
  unfold search
  dsimp only
  rw [hpage]
  rfl

/-- The rows on a page that is not rejected. -/
def SearchTransactionsDto.rowsOf (dto : SearchTransactionsDto)
    (rows : List (TransactionEntity F)) : List (TransactionEntity F) :=
  let rows := rows.drop ((dto.page.getD 1 - 1) * dto.limit.getD 20).toNat
  if dto.limit.getD 20 = 0 then rows else rows.take (dto.limit.getD 20).toNat

theorem search_ok {dto : SearchTransactionsDto} (h : ¬ dto.Rejected) (userId : UserId)
    (table : Table F) : search db aliases dto (some userId) table = .ok {
      success := true
      data := enrichWithWalletAliases aliases userId
        (dto.rowsOf (db.sort dto.order (dto.found db table)))
      «meta» := {
        page := dto.page.getD 1
        limit := dto.limit.getD 20
        total := (dto.found db table).card
        totalPages := totalPages (dto.found db table).card (dto.limit.getD 20) } } := by
  have hpage (rows : List (TransactionEntity F)) :
      page (dto.limit.getD 20) ((dto.page.getD 1 - 1) * dto.limit.getD 20) rows =
        .ok (dto.rowsOf rows) := if_neg (by simpa [SearchTransactionsDto.Rejected] using h)
  unfold search
  dsimp only
  rw [hpage]
  rfl

theorem found_single {dto : SearchTransactionsDto} {tx : TransactionEntity F}
    (h : dto.matches db tx = true) : dto.found db (.single tx) = {tx} := by
  rw [SearchTransactionsDto.found, Table.single, Finset.filter_singleton, if_pos h]

theorem found_empty (dto : SearchTransactionsDto) :
    dto.found db (.empty : Table F) = ∅ := Finset.filter_empty _

theorem search_dependsOnly_iff (dto : SearchTransactionsDto) (userId : UserId) :
    DependsOnly own (search db aliases dto (some userId)) ↔
      dto.Rejected ∨ ∀ tx, dto.matches db tx = true → own tx := by
  constructor
  · intro hdepends
    by_contra hnot
    rw [not_or, not_forall] at hnot
    obtain ⟨haccepted, tx, htx⟩ := hnot
    rw [Classical.not_imp] at htx
    have hsame := hdepends.single htx.2
    rw [search_ok db aliases haccepted, search_ok db aliases haccepted] at hsame
    -- the total counts the row of the other
    have htotal := congrArg (fun result => result.meta.total) (Except.ok.inj hsame)
    dsimp only at htotal
    rw [found_empty, found_single db htx.1, Finset.card_empty, Finset.card_singleton] at htotal
    omega
  · rintro (hrejected | hall) s s' hagree
    · rw [search_rejected db aliases hrejected, search_rejected db aliases hrejected]
    · by_cases hrejected : dto.Rejected
      · rw [search_rejected db aliases hrejected, search_rejected db aliases hrejected]
      · have hfound : dto.found db s = dto.found db s' := hagree.filter_eq hall
        rw [search_ok db aliases hrejected, search_ok db aliases hrejected, hfound]

theorem not_rejected_export (dto : ExportTransactionsDto) : ¬ dto.search.Rejected := by
  rintro (h | h)
  · change (10000 : ℤ) < 0 at h
    omega
  · change ((1 : ℤ) - 1) * 10000 < 0 at h
    omega

theorem joinLine_ne (header row : Text) : joinLine [header] ≠ joinLine [header, row] := by
  intro h
  have hlength := congrArg List.length h
  simp [joinLine, List.intercalate] at hlength

/-- No time lies in the period. -/
def EmptyPeriod (start finish : Option Time) : Prop :=
  ∃ s f, start = some s ∧ finish = some f ∧ f < s

theorem exists_time {start finish : Option Time} (h : ¬ EmptyPeriod start finish) :
    ∃ time, (∀ s ∈ start, s ≤ time) ∧ ∀ f ∈ finish, time ≤ f := by
  cases start with
  | none =>
    refine ⟨0, fun _ hs => ?_, fun f _ => Nat.zero_le f⟩
    cases hs
  | some s =>
    refine ⟨s, fun s' hs => (Option.mem_some_iff.mp hs).ge, fun f hf => ?_⟩
    by_contra hlt
    exact h ⟨s, f, rfl, hf, Nat.lt_of_not_le hlt⟩

theorem matches_export (dto : ExportTransactionsDto) (tx : TransactionEntity F) :
    dto.search.matches db tx = true ↔
      (∀ s ∈ dto.from, s ≤ tx.createdAt) ∧ ∀ f ∈ dto.«to», tx.createdAt ≤ f := by
  have hquery : dto.search.query = none := by
    have hblank : String.ofList (Js.trim "".toList) = "" := by decide
    unfold SearchTransactionsDto.query ExportTransactionsDto.search
    rw [Option.getD_none, hblank]
    rfl
  rw [SearchTransactionsDto.matches, hquery]
  simp [ExportTransactionsDto.search, Option.all_eq_true]

/-- What is exported of the rows that match. -/
def exported (userId : UserId) (dto : ExportTransactionsDto)
    (rows : List (TransactionEntity F)) : ExportResult F :=
  let data := enrichWithWalletAliases aliases userId (dto.search.rowsOf rows)
  if dto.csv then
    .csv (ExportService.convertToCsv (data.map fun item => property item.tx)
      ExportService.transactionColumns)
  else .json true data

theorem exportTransactions_eq (userId : UserId) (dto : ExportTransactionsDto) (table : Table F) :
    exportTransactions db aliases property userId dto table =
      .ok (exported aliases property userId dto
        (db.sort dto.search.order (dto.search.found db table))) := by
  unfold exportTransactions
  rw [search_ok db aliases (not_rejected_export dto), exported]
  split <;> rfl

/-- A row more can be told. -/
theorem exported_ne (userId : UserId) (dto : ExportTransactionsDto) (tx : TransactionEntity F) :
    exported aliases property userId dto [] ≠ exported aliases property userId dto [tx] := by
  have hnil : dto.search.rowsOf ([] : List (TransactionEntity F)) = [] := rfl
  have hone : dto.search.rowsOf [tx] = [tx] := rfl
  unfold exported
  rw [hnil, hone]
  dsimp only
  split
  · intro h
    exact joinLine_ne _ _ (ExportResult.csv.inj h)
  · intro h
    have hdata := (ExportResult.json.inj h).2
    cases hdata

variable (ownership : Ownership F) (userId : UserId)

theorem exports_iff (dto : ExportTransactionsDto) :
    DependsOnly (ownership.Belongs userId)
        (exportTransactions db aliases property userId dto) ↔
      EmptyPeriod dto.from dto.«to» := by
  constructor
  · intro hdepends
    by_contra hperiod
    obtain ⟨time, hstart, hfinish⟩ := exists_time hperiod
    obtain ⟨tx, hother, htime, -⟩ := ownership.exists_other userId time
    have hmatches : dto.search.matches db tx = true := by
      rw [matches_export, htime]
      exact ⟨hstart, hfinish⟩
    have hsame := hdepends.single hother
    rw [exportTransactions_eq, exportTransactions_eq, found_empty, found_single db hmatches,
      db.sort_empty, db.sort_single] at hsame
    exact exported_ne aliases property userId dto tx (Except.ok.inj hsame)
  · rintro ⟨start, finish, hfrom, hto, hlt⟩ s s' hagree
    have hfound : dto.search.found db s = dto.search.found db s' := by
      refine hagree.filter_eq fun tx hmatches => ?_
      rw [matches_export] at hmatches
      have hbetween : start ≤ finish := (hmatches.1 start hfrom).trans (hmatches.2 finish hto)
      exact absurd hbetween (not_le.mpr hlt)
    rw [exportTransactions_eq, exportTransactions_eq, hfound]

theorem reports_iff (dto : GenerateFeeReportDto) :
    DependsOnly (ownership.Belongs userId) (generate db before now generatedAt userId dto) ↔
      (resolveDateRange before now dto).2 < (resolveDateRange before now dto).1 := by
  constructor
  · intro hdepends
    by_contra hperiod
    obtain ⟨tx, hother, htime, hfee⟩ :=
      ownership.exists_other userId (resolveDateRange before now dto).1
    have hsame := congrArg FeeReportEntity.feeBreakdown (hdepends.single hother)
    have hone : (Table.single tx).rows.filter (fun tx =>
        (resolveDateRange before now dto).1 ≤ tx.createdAt ∧
          tx.createdAt ≤ (resolveDateRange before now dto).2) = {tx} := by
      rw [Table.single, Finset.filter_singleton, if_pos]
      rw [htime]
      exact ⟨le_rfl, not_lt.mp hperiod⟩
    unfold generate at hsame
    dsimp only at hsame
    rw [hone, db.sort_single, Table.empty, Finset.filter_empty, db.sort_empty] at hsame
    simp only [List.foldl_nil, List.foldl_cons, addFee, hfee] at hsame
    cases hsame
  · intro hperiod s s' hagree
    have hfound : s.rows.filter (fun tx => (resolveDateRange before now dto).1 ≤ tx.createdAt ∧
          tx.createdAt ≤ (resolveDateRange before now dto).2) =
        s'.rows.filter fun tx => (resolveDateRange before now dto).1 ≤ tx.createdAt ∧
          tx.createdAt ≤ (resolveDateRange before now dto).2 := by
      refine hagree.filter_eq fun tx hmatches => ?_
      exact absurd (hmatches.1.trans hmatches.2) (not_le.mpr hperiod)
    unfold generate
    dsimp only
    rw [hfound]

/-! ## All three -/

/-- The three answers to the user depend on the user's transactions only. -/
structure OwnDataOnly (exportDto : ExportTransactionsDto) (searchDto : SearchTransactionsDto)
    (reportDto : GenerateFeeReportDto) : Prop where
  exports : DependsOnly (ownership.Belongs userId)
    (exportTransactions db aliases property userId exportDto)
  searches : DependsOnly (ownership.Belongs userId) (search db aliases searchDto (some userId))
  reports : DependsOnly (ownership.Belongs userId)
    (generate db before now generatedAt userId reportDto)

/-- The requests match nothing of others. -/
structure MatchNoOther (exportDto : ExportTransactionsDto) (searchDto : SearchTransactionsDto)
    (reportDto : GenerateFeeReportDto) : Prop where
  exports : EmptyPeriod exportDto.from exportDto.«to»
  searches : searchDto.Rejected ∨
    ∀ tx, searchDto.matches db tx = true → ownership.Belongs userId tx
  reports : (resolveDateRange before now reportDto).2 < (resolveDateRange before now reportDto).1

/-- **Only requests that match nothing of others are answered from the user's own
transactions.** -/
theorem reports_own_iff (exportDto : ExportTransactionsDto) (searchDto : SearchTransactionsDto)
    (reportDto : GenerateFeeReportDto) :
    OwnDataOnly db aliases property before now generatedAt ownership userId exportDto searchDto
        reportDto ↔
      MatchNoOther db before now ownership userId exportDto searchDto reportDto := by
  constructor
  · rintro ⟨hexports, hsearches, hreports⟩
    exact ⟨(exports_iff db aliases property ownership userId exportDto).mp hexports,
      (search_dependsOnly_iff db aliases searchDto userId).mp hsearches,
      (reports_iff db before now generatedAt ownership userId reportDto).mp hreports⟩
  · rintro ⟨hexports, hsearches, hreports⟩
    exact ⟨(exports_iff db aliases property ownership userId exportDto).mpr hexports,
      (search_dependsOnly_iff db aliases searchDto userId).mpr hsearches,
      (reports_iff db before now generatedAt ownership userId reportDto).mpr hreports⟩

end Answers

/-! ## One row of another user -/

/-- A database without full-text search. -/
noncomputable def plainDatabase : Database Unit where
  matchesText _ _ := false
  rank _ _ := 0
  sort order rows := rows.toList.mergeSort fun a b => order.key (fun _ _ => 0) a ≤
    order.key (fun _ _ => 0) b
  perm order rows := by
    rw [Multiset.coe_eq_coe.mpr (List.mergeSort_perm _ _)]
    exact Finset.coe_toList rows
  sorted order rows := by
    refine (List.pairwise_mergeSort ?_ ?_ _).imp fun h => of_decide_eq_true h
    · intro a b c hab hbc
      exact decide_eq_true ((of_decide_eq_true hab).trans (of_decide_eq_true hbc))
    · intro a b
      rw [Bool.or_eq_true, decide_eq_true_eq, decide_eq_true_eq]
      exact le_total _ _

/-- User `n` has the wallet of that number. -/
def walletOwnership : Ownership Unit where
  owns userId walletId _ := walletId = some (toString userId)
  others userId := ⟨none, (), by simp⟩

/-- User 1 exports a transaction of wallet 2. -/
theorem other_row_exported : ∃ s s' : Table Unit,
    Agree (walletOwnership.Belongs 1) s s' ∧
    exportTransactions plainDatabase (fun _ _ => none) (fun _ _ => none) 1 ⟨false, none, none⟩ s ≠
      exportTransactions plainDatabase (fun _ _ => none) (fun _ _ => none) 1 ⟨false, none, none⟩
        s' := by
  let tx : TransactionEntity Unit :=
    ⟨7, 250, "USD", "SUCCESS", none, none, none, some "2", none, 1000, ()⟩
  refine ⟨.empty, .single tx, fun x hx => ?_, fun hsame => ?_⟩
  · have hne : x ≠ tx := by
      rintro rfl
      have hwallet : some "2" = some (toString 1) := hx
      exact absurd hwallet (by decide)
    simp [Table.empty, Table.single, hne]
  · have hmatches : (ExportTransactionsDto.search ⟨false, none, none⟩).matches plainDatabase tx =
        true := by
      rw [matches_export]
      constructor
      · intro _ h
        cases h
      · intro _ h
        cases h
    rw [exportTransactions_eq, exportTransactions_eq, found_empty,
      found_single plainDatabase hmatches, Database.sort_empty, Database.sort_single] at hsame
    exact exported_ne _ _ 1 _ tx (Except.ok.inj hsame)

end Reports

end NexaFx
