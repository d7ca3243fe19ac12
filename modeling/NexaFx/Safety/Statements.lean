import NexaFx.Model.Statements
import NexaFx.Model.Transactions

/-!
# NexaFx — adjacent statements

Two statements over `[a, b]` and `[b, c]` against the one over `[a, c]`. The
balance before a period counts the entries strictly before its first instant,
the lines of a period include both of its ends, so

* closing a period sums every entry up to its end, whatever its start
  (`closing_eq`), and the long period closes where its second half does;
* the first half closes where the second half opens **plus the entries dated
  exactly `b`**, which both halves list (`buildStatement_chain`).

Statements chain without remainder exactly over a boundary at which nothing
happened.
-/

namespace NexaFx

-- ---------------------------------------------------------------------------
-- One statement
-- ---------------------------------------------------------------------------

section Entries

variable (transactions : List Transaction) (fxTrades : List FxTrade) (userId : UserId)
  (currency : String)

/-- The entries of an account, as a statement describes them. -/
abbrev described : List StatementLine :=
  entries (transferDescription userId) tradeDescription transactions fxTrades userId currency

/-- The lines of a period are the entries dated in it, in some order. -/
theorem collectStatementLines_perm (fromDate toDate : Time) :
    (collectStatementLines transactions fxTrades userId currency fromDate toDate).Perm
      ((described transactions fxTrades userId currency).filter
        fun line => decide (fromDate ≤ line.date ∧ line.date ≤ toDate)) :=
  List.perm_insertionSort ..

/-- How often a line is listed in a period. -/
theorem count_collectStatementLines (fromDate toDate : Time) (line : StatementLine) :
    (collectStatementLines transactions fxTrades userId currency fromDate toDate).count line =
      if fromDate ≤ line.date ∧ line.date ≤ toDate
      then (described transactions fxTrades userId currency).count line else 0 := by
  rw [(collectStatementLines_perm ..).count_eq]
  split
  · rename_i hin
    exact List.count_filter (by simpa using hin)
  · rename_i hout
    rw [List.count_eq_zero]
    intro hmem
    have hin := List.of_mem_filter hmem
    exact hout (by simpa using hin)

/-- The lines of a period that are dated at one instant of it. -/
theorem sumAmounts_dated_at {fromDate toDate t : Time} (hfrom : fromDate ≤ t) (hto : t ≤ toDate) :
    sumAmounts ((collectStatementLines transactions fxTrades userId currency fromDate
        toDate).filter fun line => decide (line.date = t)) =
      sumAmounts ((described transactions fxTrades userId currency).filter
        fun line => decide (line.date = t)) := by
  refine sumAmounts_perm ?_
  refine ((collectStatementLines_perm ..).filter _).trans (List.Perm.of_eq ?_)
  rw [List.filter_filter]
  apply List.filter_congr
  intro line _
  by_cases hline : line.date = t
  · simp [hline, hfrom, hto]
  · simp [hline]

/-- **Closing balance.** A period that starts at or before its end closes with
the sum of every entry up to that end. -/
theorem closing_eq {fromDate toDate : Time} (h : fromDate ≤ toDate) :
    calculateBalanceBefore transactions fxTrades userId currency fromDate +
        sumAmounts (collectStatementLines transactions fxTrades userId currency fromDate toDate) =
      sumAmounts ((described transactions fxTrades userId currency).filter
        fun line => decide (line.date ≤ toDate)) := by
  have hsplit := sumAmounts_filter_or (p := fun d => decide (d < fromDate))
    (q := fun d => decide (fromDate ≤ d ∧ d ≤ toDate))
    (by intro d hd; simp at hd; exact absurd hd.2.1 (not_le.mpr hd.1))
    (described transactions fxTrades userId currency)
  rw [calculateBalanceBefore_eq, sumAmounts_perm (collectStatementLines_perm ..), ← hsplit]
  congr 1
  apply List.filter_congr
  intro line _
  by_cases hto : line.date ≤ toDate
  · by_cases hfrom : fromDate ≤ line.date
    · simp [hto, hfrom]
    · simp [hto, not_le.mp hfrom]
  · have hfrom : ¬ line.date < fromDate := fun hlt => hto (hlt.le.trans h)
    simp [hto, hfrom]

/-- The entries up to an instant are those before it and those at it. -/
theorem sumAmounts_upto (t : Time) :
    sumAmounts ((described transactions fxTrades userId currency).filter
        fun line => decide (line.date ≤ t)) =
      calculateBalanceBefore transactions fxTrades userId currency t +
      sumAmounts ((described transactions fxTrades userId currency).filter
        fun line => decide (line.date = t)) := by
  have hsplit := sumAmounts_filter_or (p := fun d => decide (d < t)) (q := fun d => decide (d = t))
    (by intro d hd; simp at hd; exact absurd hd.2 hd.1.ne)
    (described transactions fxTrades userId currency)
  rw [calculateBalanceBefore_eq, ← hsplit]
  congr 1
  apply List.filter_congr
  intro line _
  rw [← Bool.decide_or, decide_eq_decide]
  exact le_iff_lt_or_eq

end Entries

-- ---------------------------------------------------------------------------
-- Adjacent statements
-- ---------------------------------------------------------------------------

/-- `line` is in exactly one of two lists, and there as often as in `all`. -/
def InExactlyOne (line : StatementLine) (first second all : List StatementLine) : Prop :=
  (first.count line = all.count line ∧ second.count line = 0) ∨
  (first.count line = 0 ∧ second.count line = all.count line)

instance (line : StatementLine) (first second all : List StatementLine) :
    Decidable (InExactlyOne line first second all) :=
  inferInstanceAs (Decidable (_ ∨ _))

/-- The two halves of a period add up to the whole period. -/
structure Chained (first second whole : StatementView) : Prop where
  opening : first.closingBalance = second.openingBalance
  closing : whole.closingBalance = second.closingBalance
  lines : ∀ line ∈ whole.lines, InExactlyOne line first.lines second.lines whole.lines

/-- The two halves add up to the whole, but the entries at the instant `b` that
they share are in both. -/
structure ChainedAcross (b : Time) (first second whole : StatementView) : Prop where
  opening : first.closingBalance = second.openingBalance +
    sumAmounts (second.lines.filter fun line => decide (line.date = b))
  closing : whole.closingBalance = second.closingBalance
  lines : ∀ line ∈ whole.lines, line.date ≠ b →
    InExactlyOne line first.lines second.lines whole.lines
  shared : ∀ line ∈ whole.lines, line.date = b →
    first.lines.count line = whole.lines.count line ∧
    second.lines.count line = whole.lines.count line

/-- With nothing at the shared instant, the halves chain. -/
theorem ChainedAcross.chained {b : Time} {first second whole : StatementView}
    (h : ChainedAcross b first second whole) (hsecond : ∀ line ∈ second.lines, line.date ≠ b)
    (hwhole : ∀ line ∈ whole.lines, line.date ≠ b) : Chained first second whole := by
  have hnone : second.lines.filter (fun line => decide (line.date = b)) = [] := by
    rw [List.filter_eq_nil_iff]
    intro line hline
    simpa using hsecond line hline
  refine ⟨?_, h.closing, fun line hline => h.lines line hline (hwhole line hline)⟩
  rw [h.opening, hnone]
  exact add_zero _

/-- The halves of a period, with the entries at the instant they share in both. -/
theorem chainedAcross (db : Db) (fxTrades : List FxTrade) (userId : UserId) (currency : String)
    {a b c : Time} (hab : a ≤ b) (hbc : b ≤ c) :
    ChainedAcross b (db.statementView fxTrades ⟨userId, currency, a, b⟩)
      (db.statementView fxTrades ⟨userId, currency, b, c⟩)
      (db.statementView fxTrades ⟨userId, currency, a, c⟩) := by
  constructor
  case opening =>
    show _ + sumAmounts _ = calculateBalanceBefore _ _ _ _ b + _
    rw [closing_eq _ _ _ _ hab, sumAmounts_upto]
    congr 1
    exact (sumAmounts_dated_at _ _ _ _ le_rfl hbc).symm
  case closing =>
    show _ + sumAmounts _ = _ + sumAmounts _
    rw [closing_eq _ _ _ _ (hab.trans hbc), closing_eq _ _ _ _ hbc]
  case lines =>
    intro line hline hne
    have hin := List.of_mem_filter ((collectStatementLines_perm ..).mem_iff.mp hline)
    simp only [decide_eq_true_eq] at hin
    unfold InExactlyOne Db.statementView
    simp only [count_collectStatementLines]
    -- an entry dated off the boundary lies strictly on one side of it
    rcases lt_or_gt_of_ne hne with hlt | hgt
    · left
      rw [if_pos ⟨hin.1, hlt.le⟩, if_pos hin, if_neg fun hout => not_le.mpr hlt hout.1]
      exact ⟨rfl, rfl⟩
    · right
      rw [if_neg fun hout => not_le.mpr hgt hout.2, if_pos ⟨hgt.le, hin.2⟩, if_pos hin]
      exact ⟨rfl, rfl⟩
  case shared =>
    intro line _ hb
    unfold Db.statementView
    simp only [count_collectStatementLines, hb]
    rw [if_pos ⟨hab, le_rfl⟩, if_pos ⟨hab, hbc⟩, if_pos ⟨le_rfl, hbc⟩]
    exact ⟨rfl, rfl⟩

/-- **Adjacent statements.** For every set of transactions and trades and all
`a ≤ b ≤ c`, the three statements exist and add up, with the entries dated `b`
counted by both halves; when there are none, the halves chain. -/
theorem buildStatement_chain (db : Db) (fxTrades : List FxTrade) {userId : UserId}
    (currency : String) {a b c : Time} (huser : db.userExists userId = true) (hab : a ≤ b)
    (hbc : b ≤ c) :
    ∃ first second whole,
      db.buildStatement fxTrades ⟨userId, currency, a, b⟩ = .ok first ∧
      db.buildStatement fxTrades ⟨userId, currency, b, c⟩ = .ok second ∧
      db.buildStatement fxTrades ⟨userId, currency, a, c⟩ = .ok whole ∧
      ChainedAcross b first second whole ∧
      ((∀ line ∈ whole.lines, line.date ≠ b) → Chained first second whole) := by
  have hacross := chainedAcross db fxTrades userId currency hab hbc
  refine ⟨_, _, _, if_pos huser, if_pos huser, if_pos huser, hacross, ?_⟩
  intro hnone
  refine hacross.chained ?_ hnone
  -- the lines of the second half are lines of the whole period
  intro line hline
  have hmem := List.mem_filter.mp ((collectStatementLines_perm ..).mem_iff.mp hline)
  have hin := hmem.2
  simp only [decide_eq_true_eq] at hin
  refine hnone line ((collectStatementLines_perm ..).mem_iff.mpr (List.mem_filter.mpr ⟨hmem.1, ?_⟩))
  simpa using ⟨hab.trans hin.1, hin.2⟩

/-- A completed transfer of 5.00 USD from user 2 to user 1, at the instant `t`. -/
def receivedAt (id : TxId) (t : Time) : Transaction :=
  { createTransaction id 2 1 5 "USD" 0 ("transfer-" ++ toString id) .transfer with
    status := .completed, createdAt := t }

/-- Three transfers, one of them at the instant 20. -/
def threeReceived : Db :=
  { Db.deployed [] with transactions := [receivedAt 1 15, receivedAt 2 20, receivedAt 3 25] }

theorem buildStatement_chain_three_received :
    ∃ first second whole,
      threeReceived.buildStatement [] ⟨1, "USD", 10, 20⟩ = .ok first ∧
      threeReceived.buildStatement [] ⟨1, "USD", 20, 30⟩ = .ok second ∧
      threeReceived.buildStatement [] ⟨1, "USD", 10, 30⟩ = .ok whole ∧
      ChainedAcross 20 first second whole ∧
      ((∀ line ∈ whole.lines, line.date ≠ 20) → Chained first second whole) :=
  buildStatement_chain threeReceived [] "USD" rfl (by decide) (by decide)

/-- The transfer at the shared instant is in the closing balance of the first
half, not in the opening balance of the second, and in the lines of both. -/
theorem statements_not_chained :
    ∃ first second whole,
      threeReceived.buildStatement [] ⟨1, "USD", 10, 20⟩ = .ok first ∧
      threeReceived.buildStatement [] ⟨1, "USD", 20, 30⟩ = .ok second ∧
      threeReceived.buildStatement [] ⟨1, "USD", 10, 30⟩ = .ok whole ∧
      ¬ Chained first second whole := by
  refine ⟨_, _, _, rfl, rfl, rfl, ?_⟩
  intro h
  have hopening := h.opening
  have hclosed : (threeReceived.statementView [] ⟨1, "USD", 10, 20⟩).closingBalance = 10 := by
    decide +kernel
  have hopened : (threeReceived.statementView [] ⟨1, "USD", 20, 30⟩).openingBalance = 5 := by
    decide +kernel
  rw [hclosed, hopened] at hopening
  norm_num at hopening

end NexaFx
