import NexaFx.Lib.JsNumber

/-!
# Where the readers of numbers agree

`Number` reads a whole text, `parseInt` and `parseFloat` its beginning. On a
text that `Number` reads as a finite number they agree unless the text is
blank, has a base prefix, or — for `parseInt` — a fraction or an exponent that
matters: `parseInt_eq_iff`, `parseFloat_eq_iff`.
-/

namespace Js

/-! ## Space behind a text -/

/-- White space only. -/
def Blank (w : List Char) : Prop := ∀ c ∈ w, isSpace c = true

theorem Blank.ne_of_mem {w : List Char} (h : Blank w) {d : Char} (hd : isSpace d = false) : d ∉ w := by
  intro hmem
  rw [h d hmem] at hd
  cases hd

theorem Blank.not_digit {w : List Char} (h : Blank w) : ∀ c ∈ w, c.isDigit = false := by
  intro c hc
  by_contra hdigit
  rw [Bool.not_eq_false] at hdigit
  have hspace := h c hc
  rw [isSpace_digit hdigit] at hspace
  cases hspace

/-- `trim` leaves out what is blank at the end. -/
theorem trimStart_eq (s : List Char) : ∃ w, Blank w ∧ trimStart s = trim s ++ w := by
  refine ⟨((trimStart s).reverse.takeWhile isSpace).reverse, ?_, ?_⟩
  · intro c hc
    exact List.mem_takeWhile_imp (List.mem_reverse.mp hc)
  · rw [trim, ← List.reverse_append]
    exact (List.reverse_eq_iff.mp (List.takeWhile_append_dropWhile).symm)

theorem takeWhile_digit_append (s : List Char) {w : List Char} (hw : Blank w) :
    (s ++ w).takeWhile Char.isDigit = s.takeWhile Char.isDigit := by
  induction s with
  | nil =>
    cases w with
    | nil => rfl
    | cons c w => simp [hw.not_digit c List.mem_cons_self]
  | cons c s ih =>
    rw [List.cons_append, List.takeWhile_cons, List.takeWhile_cons, ih]

theorem dropWhile_digit_append (s : List Char) {w : List Char} (hw : Blank w) :
    (s ++ w).dropWhile Char.isDigit = s.dropWhile Char.isDigit ++ w := by
  induction s with
  | nil =>
    cases w with
    | nil => rfl
    | cons c w => simp [hw.not_digit c List.mem_cons_self]
  | cons c s ih =>
    rw [List.cons_append, List.dropWhile_cons, List.dropWhile_cons, ih]
    split <;> rfl

theorem scanSign_cons (c : Char) (s : List Char) :
    scanSign (c :: s) = if c = '-' then (-1, s) else if c = '+' then (1, s) else (1, c :: s) := by
  unfold scanSign
  split
  · rename_i heq
    obtain ⟨rfl, rfl⟩ := List.cons.inj heq
    rfl
  · rename_i heq
    obtain ⟨rfl, rfl⟩ := List.cons.inj heq
    rfl
  · rename_i hminus hplus
    have hne (d : Char) (hd : ∀ t, c :: s ≠ d :: t) : c ≠ d := by
      rintro rfl
      exact hd s rfl
    rw [if_neg (hne '-' hminus), if_neg (hne '+' hplus)]

theorem scanFraction_cons (c : Char) (s : List Char) :
    scanFraction (c :: s) =
      if c = '.' then (s.takeWhile Char.isDigit, s.dropWhile Char.isDigit) else ([], c :: s) := by
  unfold scanFraction
  split
  · rename_i heq
    obtain ⟨rfl, rfl⟩ := List.cons.inj heq
    rfl
  · rename_i hpoint
    rw [if_neg]
    rintro rfl
    exact hpoint s rfl

theorem scanSign_append (s : List Char) {w : List Char} (hw : Blank w) :
    scanSign (s ++ w) = ((scanSign s).1, (scanSign s).2 ++ w) := by
  cases s with
  | nil =>
    cases w with
    | nil => rfl
    | cons c w =>
      have hsign (d : Char) (hd : isSpace d = false) : c ≠ d := fun h =>
        hw.ne_of_mem hd (h ▸ List.mem_cons_self)
      rw [List.nil_append, scanSign_cons, if_neg (hsign '-' (by decide)),
        if_neg (hsign '+' (by decide))]
      rfl
  | cons c s =>
    rw [List.cons_append, scanSign_cons, scanSign_cons]
    split_ifs <;> rfl

theorem scanFraction_append (s : List Char) {w : List Char} (hw : Blank w) :
    scanFraction (s ++ w) = ((scanFraction s).1, (scanFraction s).2 ++ w) := by
  cases s with
  | nil =>
    cases w with
    | nil => rfl
    | cons c w =>
      have hpoint : c ≠ '.' := fun h => hw.ne_of_mem (d := '.') (by decide) (h ▸ List.mem_cons_self)
      rw [List.nil_append, scanFraction_cons, if_neg hpoint]
      rfl
  | cons c s =>
    rw [List.cons_append, scanFraction_cons, scanFraction_cons, takeWhile_digit_append s hw,
      dropWhile_digit_append s hw]
    split <;> rfl

theorem scanExponent_append (s : List Char) {w : List Char} (hw : Blank w) :
    scanExponent (s ++ w) = ((scanExponent s).1, (scanExponent s).2 ++ w) := by
  cases s with
  | nil =>
    cases w with
    | nil => rfl
    | cons c w =>
      have hletter : ¬ ((decide (c = 'e') || decide (c = 'E')) = true) := by
        rw [Bool.or_eq_true, decide_eq_true_eq, decide_eq_true_eq]
        rintro (rfl | rfl)
        · exact hw.ne_of_mem (by decide) List.mem_cons_self
        · exact hw.ne_of_mem (by decide) List.mem_cons_self
      rw [List.nil_append]
      exact if_neg hletter
  | cons c s =>
    simp only [List.cons_append, scanExponent, scanSign_append s hw,
      takeWhile_digit_append _ hw, dropWhile_digit_append _ hw]
    split_ifs <;> rfl

/-! ## Decimal literals -/

structure Literal where
  sign : ℚ
  whole : List Char
  fraction : List Char
  exponent : ℤ

def Literal.value (l : Literal) : ℚ :=
  l.sign * decimalValue (l.whole ++ l.fraction) * 10 ^ (l.exponent - l.fraction.length)

/-- The fraction and the exponent do not change the nearest double. -/
def Literal.IsWhole (l : Literal) : Prop :=
  l.whole ≠ [] ∧ Num.of l.value = Num.of (l.sign * decimalValue l.whole)

/-- The parts of the literal at the start of a text. -/
def literal (t : List Char) : Literal where
  sign := (scanSign t).1
  whole := (scanSign t).2.takeWhile Char.isDigit
  fraction := (scanFraction ((scanSign t).2.dropWhile Char.isDigit)).1
  exponent := (scanExponent (scanFraction ((scanSign t).2.dropWhile Char.isDigit)).2).1

/-- What is behind it. -/
def behind (t : List Char) : List Char :=
  (scanExponent (scanFraction ((scanSign t).2.dropWhile Char.isDigit)).2).2

theorem scanDecimal_eq (t : List Char) : scanDecimal t =
    if "Infinity".toList.isPrefixOf (scanSign t).2 then
      some (.inf (decide ((scanSign t).1 < 0)), (scanSign t).2.drop 8)
    else if (literal t).whole = [] && (literal t).fraction = [] then none
    else some (.of (literal t).value, behind t) := rfl

theorem literal_append (t : List Char) {w : List Char} (hw : Blank w) :
    literal (t ++ w) = literal t := by
  simp only [literal, scanSign_append t hw, takeWhile_digit_append _ hw,
    dropWhile_digit_append _ hw, scanFraction_append _ hw, scanExponent_append _ hw]

theorem behind_append (t : List Char) {w : List Char} (hw : Blank w) :
    behind (t ++ w) = behind t ++ w := by
  simp only [behind, scanSign_append t hw, dropWhile_digit_append _ hw, scanFraction_append _ hw,
    scanExponent_append _ hw]

/-- A text that is read as a finite number is so because of its literal. -/
theorem literal_of_scanDecimal {t rest : List Char} {q : ℚ}
    (h : scanDecimal t = some (.fin q, rest)) :
    "Infinity".toList.isPrefixOf (scanSign t).2 = false ∧
      ((literal t).whole = [] && (literal t).fraction = []) = false ∧
      Num.of (literal t).value = .fin q := by
  rw [scanDecimal_eq] at h
  split at h
  · cases h
  · rename_i hinfinity
    split at h
    · cases h
    · rename_i hdigits
      exact ⟨Bool.eq_false_of_not_eq_true hinfinity, Bool.eq_false_of_not_eq_true hdigits,
        (Prod.mk.inj (Option.some.inj h)).1⟩

theorem scanDecimal_append {t rest : List Char} {q : ℚ} (h : scanDecimal t = some (.fin q, rest))
    {w : List Char} (hw : Blank w) : ∃ rest', scanDecimal (t ++ w) = some (.fin q, rest') := by
  obtain ⟨hinfinity, hdigits, hvalue⟩ := literal_of_scanDecimal h
  have hinfinity' : "Infinity".toList.isPrefixOf (scanSign (t ++ w)).2 = false := by
    rw [scanSign_append t hw]
    rw [← Bool.not_eq_true, List.isPrefixOf_iff_prefix] at hinfinity ⊢
    rintro ⟨k, hk⟩
    rcases List.append_eq_append_iff.mp hk with ⟨m, hm, -⟩ | ⟨m, hm, hw'⟩
    · exact hinfinity ⟨m, hm.symm⟩
    · match m with
      | [] =>
        rw [List.append_nil] at hm
        exact hinfinity (hm ▸ List.prefix_rfl)
      | c :: m =>
        -- a letter of the name would be blank
        have hletter : c ∈ "Infinity".toList := by
          rw [hm]
          exact List.mem_append_right _ List.mem_cons_self
        have hspace : isSpace c = true := hw c (hw' ▸ List.mem_cons_self)
        have hnone : ("Infinity".toList.all fun d => !isSpace d) = true := by decide
        have hletter' := List.all_eq_true.mp hnone c hletter
        rw [hspace] at hletter'
        cases hletter'
  rw [scanDecimal_eq, hinfinity', literal_append t hw, hdigits, hvalue]
  exact ⟨_, rfl⟩

/-! ## The three readers -/

/-- A prefix for base 16, 8 or 2, and the digits behind it. -/
def based : List Char → Option (ℕ × List Char)
  | '0' :: x :: ds =>
    if x = 'x' || x = 'X' then some (16, ds)
    else if x = 'o' || x = 'O' then some (8, ds)
    else if x = 'b' || x = 'B' then some (2, ds)
    else none
  | _ => none

theorem number_of_based {s : List Char} {base : ℕ} {ds : List Char}
    (h : based (trim s) = some (base, ds)) :
    number s = baseValue base ds ∧ 2 ≤ base ∧
      ∃ x, trim s = '0' :: x :: ds ∧ x.isDigit = false ∧ x ≠ '.' ∧ x ≠ 'e' ∧ x ≠ 'E' := by
  unfold number
  generalize trim s = t at h
  unfold based at h
  split at h
  · rename_i x rest
    split_ifs at h with hx ho hb
    · cases h
      refine ⟨if_pos hx, by norm_num, x, rfl, ?_⟩
      rcases (Bool.or_eq_true _ _).mp hx with hx | hx <;>
        rw [of_decide_eq_true hx] <;> decide
    · cases h
      refine ⟨(if_neg hx).trans (if_pos ho), by norm_num, x, rfl, ?_⟩
      rcases (Bool.or_eq_true _ _).mp ho with ho | ho <;>
        rw [of_decide_eq_true ho] <;> decide
    · cases h
      refine ⟨((if_neg hx).trans (if_neg ho)).trans (if_pos hb), by norm_num, x, rfl, ?_⟩
      rcases (Bool.or_eq_true _ _).mp hb with hb | hb <;>
        rw [of_decide_eq_true hb] <;> decide
  · cases h

/-- Without a base prefix, a text that is not blank is one decimal literal. -/
theorem scanDecimal_of_fin {u : List Char} {q : ℚ}
    (h : (match scanDecimal u with | some (value, []) => value | _ => .nan) = .fin q) :
    scanDecimal u = some (.fin q, []) := by
  split at h
  · rename_i value heq
    rw [heq, h]
  · cases h

theorem scanDecimal_of_number {s : List Char} {q : ℚ} (hnone : based (trim s) = none)
    (hne : trim s ≠ []) (h : number s = .fin q) : scanDecimal (trim s) = some (.fin q, []) := by
  unfold number at h
  generalize trim s = t at hnone hne h
  split at h
  · exact absurd rfl hne
  · rename_i x rest
    have hnone' : (if x = 'x' || x = 'X' then some (16, rest)
        else if x = 'o' || x = 'O' then some (8, rest)
        else if x = 'b' || x = 'B' then some (2, rest)
        else none) = none := hnone
    split_ifs at hnone' with hx ho hb
    rw [if_neg hx, if_neg ho, if_neg hb] at h
    exact scanDecimal_of_fin h
  · exact scanDecimal_of_fin h

theorem trimStart_of_blank {s : List Char} (h : trim s = []) : trimStart s = [] := by
  obtain ⟨w, hw, heq⟩ := trimStart_eq s
  rw [h, List.nil_append] at heq
  match hstart : trimStart s with
  | [] => rfl
  | c :: rest =>
    rw [hstart] at heq
    have hspace : isSpace c = true := hw c (heq ▸ List.mem_cons_self)
    have hhead := List.head?_dropWhile_not isSpace s
    rw [show s.dropWhile isSpace = c :: rest from hstart] at hhead
    simp [hspace] at hhead

theorem parseInt_eq (s : List Char) : parseInt s =
    if (literal (trim s)).whole = [] then .nan
    else .of ((literal (trim s)).sign * decimalValue (literal (trim s)).whole) := by
  obtain ⟨w, hw, heq⟩ := trimStart_eq s
  have hliteral := literal_append (trim s) hw
  rw [← heq] at hliteral
  rw [← hliteral]
  rfl

theorem of_natCast_eq_zero {n : ℕ} {q : ℚ} (h : Num.of n = .fin q) : q = 0 ↔ n = 0 := by
  rcases Nat.eq_zero_or_pos n with rfl | hpos
  · have hzero : Num.of ((0 : ℕ) : ℚ) = .fin ((0 : ℤ) : ℚ) := Num.of_intCast (n := 0) (by norm_num)
    rw [hzero] at h
    have hq := Num.fin.inj h
    simp [← hq]
  · have hround : (2 : ℚ) ^ 0 ≤ roundDouble n := le_roundDouble (by exact_mod_cast hpos)
    unfold Num.of at h
    split at h
    · cases h
    · rw [← Num.fin.inj h]
      rw [pow_zero] at hround
      constructor
      · intro hzero
        rw [hzero] at hround
        norm_num at hround
      · omega

theorem baseDigit_eq_zero {base : ℕ} {c : Char} {v : ℕ} (h : baseDigit base c = some v) :
    v = 0 ↔ c = '0' := by
  have hzero : c.toNat = 48 ↔ c = '0' := Char.toNat_inj (d := '0')
  have hv := (Option.ite_none_right_eq_some.mp h).2
  rw [← Option.some.inj hv]
  split_ifs with hdigit hlow hhigh
  · have hge : 48 ≤ c.toNat := (Char.isDigit_iff_toNat.mp hdigit).1
    rw [← hzero, digitValue]
    omega
  · have hge : 97 ≤ c.toNat := of_decide_eq_true ((Bool.and_eq_true _ _).mp hlow).1
    rw [← hzero]
    omega
  · have hge : 65 ≤ c.toNat := of_decide_eq_true ((Bool.and_eq_true _ _).mp hhigh).1
    rw [← hzero]
    omega
  · refine iff_of_false (by norm_num) ?_
    rintro rfl
    exact hdigit (by decide)

theorem mapM_baseDigit_zero {base : ℕ} {ds : List Char} {vs : List ℕ}
    (h : ds.mapM (baseDigit base) = some vs) : (∀ v ∈ vs, v = 0) ↔ ∀ d ∈ ds, d = '0' := by
  induction ds generalizing vs with
  | nil =>
    cases h
    simp
  | cons d ds ih =>
    rw [List.mapM_cons] at h
    obtain ⟨v, hv, h⟩ := Option.bind_eq_some_iff.mp h
    obtain ⟨vs, hvs, h⟩ := Option.bind_eq_some_iff.mp h
    cases h
    rw [List.forall_mem_cons, List.forall_mem_cons, ih hvs, baseDigit_eq_zero hv]

theorem foldl_base_eq_zero {base : ℕ} (hbase : 2 ≤ base) (vs : List ℕ) (v : ℕ) :
    vs.foldl (fun v d => base * v + d) v = 0 ↔ v = 0 ∧ ∀ d ∈ vs, d = 0 := by
  induction vs generalizing v with
  | nil => simp
  | cons d vs ih =>
    rw [List.foldl_cons, ih, List.forall_mem_cons, ← and_assoc, Nat.add_eq_zero_iff,
      Nat.mul_eq_zero]
    have hne : base ≠ 0 := by omega
    simp [hne]

/-- The number 0 has no digit but 0. -/
theorem baseValue_eq_zero {base : ℕ} (hbase : 2 ≤ base) {ds : List Char} {q : ℚ}
    (h : baseValue base ds = .fin q) : q = 0 ↔ ∀ d ∈ ds, d = '0' := by
  unfold baseValue at h
  split at h
  · cases h
  · rename_i vs hvs
    rw [of_natCast_eq_zero h, foldl_base_eq_zero hbase, mapM_baseDigit_zero hvs]
    simp
  · cases h

/-! ## Powers of two -/

theorem shiftUp_fin {k : ℕ} {q : ℚ} (h : |q * 2 ^ k| < 2 ^ 1024) :
    (Num.fin q).shiftUp k = .fin (q * 2 ^ k) :=
  if_neg (not_le.mpr h)

theorem shiftUp_eq_fin {k : ℕ} {x : Num} {r : ℚ} (h : x.shiftUp k = .fin r) :
    ∃ q, x = .fin q ∧ r = q * 2 ^ k := by
  cases x with
  | nan => cases h
  | inf negative => cases h
  | fin q =>
    by_cases hbig : 2 ^ 1024 ≤ |q * 2 ^ k|
    · rw [Num.shiftUp, if_pos hbig] at h
      cases h
    · rw [Num.shiftUp, if_neg hbig] at h
      exact ⟨q, rfl, (Num.fin.inj h).symm⟩

/-! ## Agreement -/

/-- `parseInt` reads the text as `Number` does. -/
def IntAlike (s : List Char) : Prop :=
  match based (trim s) with
  | some (_, ds) => ∀ d ∈ ds, d = '0'
  | none => (literal (trim s)).IsWhole

/-- `parseFloat` reads the text as `Number` does. -/
def FloatAlike (s : List Char) : Prop :=
  match based (trim s) with
  | some (_, ds) => ∀ d ∈ ds, d = '0'
  | none => trim s ≠ []

/-- Before a base prefix both read a zero. -/
theorem literal_of_based {t : List Char} {x : Char} {ds : List Char} (ht : t = '0' :: x :: ds)
    (hdigit : x.isDigit = false) (hpoint : x ≠ '.') (he : x ≠ 'e') (hE : x ≠ 'E') :
    literal t = { sign := 1, whole := ['0'], fraction := [], exponent := 0 } := by
  have hletter : ¬ ((decide (x = 'e') || decide (x = 'E')) = true) := by
    simp [he, hE]
  have hsign : scanSign t = (1, '0' :: x :: ds) := by
    rw [ht, scanSign_cons, if_neg (by decide), if_neg (by decide)]
  have hrest : ('0' :: x :: ds).dropWhile Char.isDigit = x :: ds := by
    simp [hdigit]
  have hexponent : scanExponent (x :: ds) = (0, x :: ds) := if_neg hletter
  simp only [literal, hsign, hrest, scanFraction_cons, if_neg hpoint, hexponent]
  simp [hdigit]

theorem literal_nil : (literal []).whole = [] := rfl

theorem of_zero : Num.of 0 = .fin 0 := by
  exact_mod_cast Num.of_intCast (n := 0) (by norm_num)

/-- **`parseInt` and `Number`**, where the latter reads a finite number. -/
theorem parseInt_eq_iff {s : List Char} {q : ℚ} (h : number s = .fin q) :
    parseInt s = .fin q ↔ IntAlike s := by
  rw [parseInt_eq, IntAlike]
  cases hbased : based (trim s) with
  | some found =>
    obtain ⟨base, ds⟩ := found
    obtain ⟨hnumber, hbase, x, htrim, hdigit, hpoint, he, hE⟩ := number_of_based hbased
    rw [hnumber] at h
    refine Iff.trans ?_ (baseValue_eq_zero hbase h)
    rw [literal_of_based htrim hdigit hpoint he hE]
    have hzero : Num.of (1 * (decimalValue ['0'] : ℚ)) = .fin 0 := by
      rw [show decimalValue ['0'] = 0 from rfl, Nat.cast_zero, mul_zero, of_zero]
    rw [if_neg (List.cons_ne_nil _ _), hzero, Num.fin.injEq]
    exact eq_comm
  | none =>
    by_cases hne : trim s = []
    · rw [hne, literal_nil, if_pos rfl]
      exact iff_of_false (by simp) fun hwhole => hwhole.1 literal_nil
    · obtain ⟨-, -, hvalue⟩ := literal_of_scanDecimal (scanDecimal_of_number hbased hne h)
      unfold Literal.IsWhole
      rw [hvalue]
      split
      · rename_i hnil
        exact iff_of_false (by simp) fun hwhole => hwhole.1 hnil
      · rename_i hnonempty
        rw [and_iff_right hnonempty]
        exact eq_comm

/-- **`parseFloat` and `Number`**, where the latter reads a finite number. -/
theorem parseFloat_eq_iff {s : List Char} {q : ℚ} (h : number s = .fin q) :
    parseFloat s = .fin q ↔ FloatAlike s := by
  obtain ⟨w, hw, hstart⟩ := trimStart_eq s
  rw [parseFloat, FloatAlike]
  cases hbased : based (trim s) with
  | some found =>
    obtain ⟨base, ds⟩ := found
    obtain ⟨hnumber, hbase, x, htrim, hdigit, hpoint, he, hE⟩ := number_of_based hbased
    rw [hnumber] at h
    rw [htrim] at hstart
    have hliteral := literal_of_based hstart hdigit hpoint he hE
    have hinfinity : "Infinity".toList.isPrefixOf (scanSign (trimStart s)).2 = false := by
      rw [hstart, List.cons_append, scanSign_cons, if_neg (by decide), if_neg (by decide),
        ← Bool.not_eq_true, List.isPrefixOf_iff_prefix]
      rintro ⟨k, hk⟩
      have hhead : '0' = 'I' := (List.cons.inj hk).1.symm
      exact absurd hhead (by decide)
    have hvalue : Num.of (literal (trimStart s)).value = .fin 0 := by
      rw [hliteral, Literal.value, ← of_zero]
      congr 1
      rw [show decimalValue (['0'] ++ []) = 0 from rfl, Nat.cast_zero, mul_zero, zero_mul]
    refine Iff.trans ?_ (baseValue_eq_zero hbase h)
    rw [scanDecimal_eq, hinfinity, hvalue, hliteral]
    exact Num.fin.injEq _ _ ▸ eq_comm
  | none =>
    by_cases hne : trim s = []
    · rw [trimStart_of_blank hne, hne]
      exact iff_of_false (fun hread => by cases hread) fun h => h rfl
    · obtain ⟨rest, hscan⟩ := scanDecimal_append (scanDecimal_of_number hbased hne h) hw
      rw [hstart, hscan]
      exact iff_of_true rfl hne

end Js
