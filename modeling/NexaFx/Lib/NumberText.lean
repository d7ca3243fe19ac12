import NexaFx.Lib.JsReaders

/-!
# The texts of numbers

`Number::toString` of ECMAScript: the shortest decimal that is read back as the
same double, written plainly or with an exponent. `readNumber` reads the numbers
of JSON, a narrower grammar than that of `Number`.

* `readNumber_toText` — every finite double is read back from its text;
* `isDouble_readNumber` — a finite number that is read is a double.
-/

namespace Js

-- ---------------------------------------------------------------------------
-- Numerals
-- ---------------------------------------------------------------------------

/-- Digits around a point, and an exponent. -/
structure Numeral where
  negative : Bool
  whole : List Char
  fraction : List Char
  exponent : Option ℤ

namespace Numeral

def exponentText : Option ℤ → List Char
  | none => []
  | some e => 'e' :: (if e < 0 then '-' else '+') :: Nat.toDigits 10 e.natAbs

def fractionText (fraction : List Char) : List Char :=
  if fraction = [] then [] else '.' :: fraction

def text (x : Numeral) : List Char :=
  (if x.negative then ['-'] else []) ++
    (x.whole ++ (fractionText x.fraction ++ exponentText x.exponent))

def value (x : Numeral) : ℚ :=
  (if x.negative then -1 else 1) * decimalValue (x.whole ++ x.fraction) *
    10 ^ (x.exponent.getD 0 - x.fraction.length)

/-- No leading zeros, and digits where digits belong. -/
structure Sound (x : Numeral) : Prop where
  whole : ∀ c ∈ x.whole, c.isDigit = true
  fraction : ∀ c ∈ x.fraction, c.isDigit = true
  nonempty : x.whole ≠ []
  leading : x.whole = ['0'] ∨ x.whole.head? ≠ some '0'

end Numeral

-- ---------------------------------------------------------------------------
-- The numbers of JSON
-- ---------------------------------------------------------------------------

/-- What is behind a fraction; a point without digits is an error. -/
def skipFraction : List Char → Option (List Char)
  | '.' :: rest =>
    if rest.takeWhile Char.isDigit = [] then none else some (rest.dropWhile Char.isDigit)
  | rest => some rest

def skipExponent : List Char → Option (List Char)
  | [] => some []
  | c :: rest =>
    if c = 'e' || c = 'E' then
      let digits := (scanSign rest).2
      if digits.takeWhile Char.isDigit = [] then none else some (digits.dropWhile Char.isDigit)
    else some (c :: rest)

def skipMinus : List Char → List Char
  | '-' :: rest => rest
  | rest => rest

/-- The text is a number of JSON. -/
def isNumber (t : List Char) : Bool :=
  let whole := (skipMinus t).takeWhile Char.isDigit
  (whole = ['0'] || (whole ≠ [] && whole.head? ≠ some '0')) &&
    ((skipFraction ((skipMinus t).dropWhile Char.isDigit)).bind skipExponent = some [])

def readNumber (t : List Char) : Option Num :=
  if isNumber t then some (.of (literal t).value) else none

/-- What comes after digits. -/
def NoDigit (rest : List Char) : Prop := ∀ c, rest.head? = some c → c.isDigit = false

section Scanning

variable {ds rest : List Char}

theorem takeWhile_digits (hds : ∀ c ∈ ds, c.isDigit = true) (hrest : NoDigit rest) :
    (ds ++ rest).takeWhile Char.isDigit = ds := by
  rw [List.takeWhile_append_of_pos hds]
  cases rest with
  | nil => simp
  | cons c rest => simp [hrest c rfl]

theorem dropWhile_digits (hds : ∀ c ∈ ds, c.isDigit = true) (hrest : NoDigit rest) :
    (ds ++ rest).dropWhile Char.isDigit = rest := by
  rw [List.dropWhile_append_of_pos hds]
  cases rest with
  | nil => simp
  | cons c rest => simp [hrest c rfl]

theorem noDigit_nil : NoDigit [] := fun _ h => by cases h

theorem noDigit_cons {c : Char} (hc : c.isDigit = false) : NoDigit (c :: rest) := by
  intro c' h
  cases h
  exact hc

theorem scanSign_digit {c : Char} (hc : c.isDigit = true) :
    scanSign (c :: rest) = (1, c :: rest) := by
  unfold scanSign
  split
  · rename_i hcons
    cases hcons
    exact absurd hc (by decide)
  · rename_i hcons
    cases hcons
    exact absurd hc (by decide)
  · rfl

theorem skipMinus_digit {c : Char} (hc : c.isDigit = true) :
    skipMinus (c :: rest) = c :: rest := by
  unfold skipMinus
  split
  · rename_i hcons
    cases hcons
    exact absurd hc (by decide)
  · rfl

end Scanning

namespace Numeral

theorem digits_toDigits (n : ℕ) : ∀ c ∈ Nat.toDigits 10 n, c.isDigit = true :=
  fun _ hc => Nat.isDigit_of_mem_toDigits (by decide) (by decide) hc

theorem decimalValue_eq (ds : List Char) : decimalValue ds = Nat.ofDigitChars 10 ds 0 := rfl

@[simp] theorem decimalValue_toDigits (n : ℕ) : decimalValue (Nat.toDigits 10 n) = n := by
  rw [decimalValue_eq, Nat.ofDigitChars_ten_toDigits]

theorem noDigit_exponentText (e : Option ℤ) : NoDigit (exponentText e) := by
  cases e with
  | none => exact noDigit_nil
  | some e => exact noDigit_cons (by decide)

theorem takeWhile_toDigits (n : ℕ) :
    (Nat.toDigits 10 n).takeWhile Char.isDigit = Nat.toDigits 10 n :=
  List.takeWhile_eq_self_iff.mpr (digits_toDigits n)

theorem dropWhile_toDigits (n : ℕ) : (Nat.toDigits 10 n).dropWhile Char.isDigit = [] :=
  List.dropWhile_eq_nil_iff.mpr (digits_toDigits n)

theorem scanExponent_text (e : Option ℤ) : scanExponent (exponentText e) = (e.getD 0, []) := by
  cases e with
  | none => rfl
  | some e =>
    by_cases he : e < 0
    · simp [exponentText, scanExponent, scanSign, he, takeWhile_toDigits, dropWhile_toDigits,
        Nat.toDigits_ne_nil, abs_of_neg he]
    · simp [exponentText, scanExponent, scanSign, he, takeWhile_toDigits, dropWhile_toDigits,
        Nat.toDigits_ne_nil, abs_of_nonneg (not_lt.mp he)]

theorem skipExponent_text (e : Option ℤ) : skipExponent (exponentText e) = some [] := by
  cases e with
  | none => rfl
  | some e =>
    by_cases he : e < 0
    · simp [exponentText, skipExponent, scanSign, he, takeWhile_toDigits, dropWhile_toDigits,
        Nat.toDigits_ne_nil]
    · simp [exponentText, skipExponent, scanSign, he, takeWhile_toDigits, dropWhile_toDigits,
        Nat.toDigits_ne_nil]

section Reading

variable {x : Numeral}

theorem noDigit_tail (f : List Char) (e : Option ℤ) :
    NoDigit (fractionText f ++ exponentText e) := by
  unfold fractionText
  split
  · exact noDigit_exponentText e
  · exact noDigit_cons (by decide)

theorem scanFraction_text {f : List Char} (hf : ∀ c ∈ f, c.isDigit = true) (e : Option ℤ) :
    scanFraction (fractionText f ++ exponentText e) = (f, exponentText e) := by
  unfold fractionText
  split
  · rename_i hnil
    subst hnil
    cases e <;> rfl
  · show ((f ++ exponentText e).takeWhile _, (f ++ exponentText e).dropWhile _) = _
    rw [takeWhile_digits hf (noDigit_exponentText e), dropWhile_digits hf (noDigit_exponentText e)]

theorem skipFraction_text {f : List Char} (hf : ∀ c ∈ f, c.isDigit = true) (e : Option ℤ) :
    skipFraction (fractionText f ++ exponentText e) = some (exponentText e) := by
  unfold fractionText
  split
  · cases e <;> rfl
  · rename_i hne
    show (if (f ++ exponentText e).takeWhile _ = [] then none
      else some ((f ++ exponentText e).dropWhile _)) = _
    rw [takeWhile_digits hf (noDigit_exponentText e), dropWhile_digits hf (noDigit_exponentText e),
      if_neg hne]

theorem Sound.cons (h : x.Sound) : ∃ c rest, x.whole = c :: rest ∧ c.isDigit = true := by
  obtain ⟨c, rest, hcons⟩ := List.exists_cons_of_ne_nil h.nonempty
  exact ⟨c, rest, hcons, h.whole c (hcons ▸ List.mem_cons_self)⟩

theorem scanSign_text (h : x.Sound) : scanSign x.text =
    (if x.negative then -1 else 1,
      x.whole ++ (fractionText x.fraction ++ exponentText x.exponent)) := by
  obtain ⟨c, rest, hcons, hc⟩ := h.cons
  unfold text
  cases x.negative with
  | true => rfl
  | false =>
    rw [hcons]
    exact scanSign_digit hc

theorem skipMinus_text (h : x.Sound) : skipMinus x.text =
    x.whole ++ (fractionText x.fraction ++ exponentText x.exponent) := by
  obtain ⟨c, rest, hcons, hc⟩ := h.cons
  unfold text
  cases x.negative with
  | true => rfl
  | false =>
    rw [hcons]
    exact skipMinus_digit hc

/-- **A numeral is read as its value.** -/
theorem readNumber_text (h : x.Sound) : readNumber x.text = some (.of x.value) := by
  have htail := noDigit_tail x.fraction x.exponent
  have hnumber : isNumber x.text = true := by
    unfold isNumber
    simp only [skipMinus_text h, takeWhile_digits h.whole htail, dropWhile_digits h.whole htail,
      skipFraction_text h.fraction, Option.bind_some, skipExponent_text]
    simpa [h.nonempty] using h.leading
  have hvalue : (literal x.text).value = x.value := by
    simp only [literal, Literal.value, value, scanSign_text h, takeWhile_digits h.whole htail,
      dropWhile_digits h.whole htail, scanFraction_text h.fraction, scanExponent_text]
  rw [readNumber, if_pos hnumber, hvalue]

end Reading

end Numeral

-- ---------------------------------------------------------------------------
-- Layout
-- ---------------------------------------------------------------------------

namespace Numeral

/-- The numeral of `s * 10 ^ e`: plain when the point stands within or near the
digits, with an exponent otherwise. -/
def ofDecimal (negative : Bool) (s : ℕ) (e : ℤ) : Numeral :=
  let ds := Nat.toDigits 10 s
  let n := ds.length + e
  if 0 ≤ e ∧ n ≤ 21 then ⟨negative, ds ++ List.replicate e.toNat '0', [], none⟩
  else if 0 < n ∧ n ≤ 21 then ⟨negative, ds.take n.toNat, ds.drop n.toNat, none⟩
  else if -6 < n ∧ n ≤ 0 then ⟨negative, ['0'], List.replicate (-n).toNat '0' ++ ds, none⟩
  else ⟨negative, ds.take 1, ds.drop 1, some (n - 1)⟩

theorem decimalValue_zeros (n : ℕ) (ds : List Char) :
    decimalValue (List.replicate n '0' ++ ds) = decimalValue ds := by
  rw [decimalValue_eq, decimalValue_eq, Nat.ofDigitChars_append, Nat.ofDigitChars_replicate_zero,
    mul_zero]

theorem negative_ofDecimal (negative : Bool) (s : ℕ) (e : ℤ) :
    (ofDecimal negative s e).negative = negative := by
  unfold ofDecimal
  dsimp only
  split_ifs <;> rfl

theorem digits_ofDecimal (negative : Bool) (s : ℕ) (e : ℤ) :
    (decimalValue ((ofDecimal negative s e).whole ++ (ofDecimal negative s e).fraction) : ℚ) *
      10 ^ ((ofDecimal negative s e).exponent.getD 0 - (ofDecimal negative s e).fraction.length) =
    s * 10 ^ e := by
  have hlength : 0 < (Nat.toDigits 10 s).length := Nat.length_toDigits_pos
  unfold ofDecimal
  dsimp only
  split_ifs with hplain hpoint hsmall
  · obtain ⟨k, rfl⟩ := Int.eq_ofNat_of_zero_le hplain.1
    rw [List.append_nil, decimalValue_eq, Nat.ofDigitChars_append, Nat.ofDigitChars_ten_toDigits,
      Nat.ofDigitChars_replicate_zero]
    simp [mul_comm]
  · rw [List.take_append_drop, decimalValue_toDigits, List.length_drop, Option.getD_none]
    congr 2
    omega
  · have hzeros : ∀ n, ['0'] ++ List.replicate n '0' = List.replicate (n + 1) '0' := fun _ => rfl
    rw [← List.append_assoc, hzeros, decimalValue_zeros, decimalValue_toDigits, List.length_append,
      List.length_replicate, Option.getD_none]
    congr 2
    omega
  · rw [List.take_append_drop, decimalValue_toDigits, List.length_drop, Option.getD_some]
    congr 2
    omega

theorem value_ofDecimal (negative : Bool) (s : ℕ) (e : ℤ) :
    (ofDecimal negative s e).value = (if negative then -1 else 1) * (s * 10 ^ e) := by
  rw [value, negative_ofDecimal, mul_assoc, digits_ofDecimal]

theorem head_toDigits {s : ℕ} (hs : 0 < s) : (Nat.toDigits 10 s).head? ≠ some '0' := by
  induction s using Nat.strong_induction_on with
  | _ s ih =>
    rw [Nat.toDigits_eq_if (by decide)]
    split
    · interval_cases s <;> simp [Nat.digitChar]
    · rw [List.head?_append_of_ne_nil _ Nat.toDigits_ne_nil]
      exact ih (s / 10) (by omega) (by omega)

theorem sound_ofDecimal (negative : Bool) {s : ℕ} (hs : 0 < s) (e : ℤ) :
    (ofDecimal negative s e).Sound := by
  have hdigits := digits_toDigits s
  have hhead := head_toDigits hs
  have hne : Nat.toDigits 10 s ≠ [] := Nat.toDigits_ne_nil
  have hzeros : ∀ n, ∀ c ∈ List.replicate n '0', c.isDigit = true := by
    intro n c hc
    rw [List.eq_of_mem_replicate hc]
    rfl
  have htake : ∀ n, 0 < n → (Nat.toDigits 10 s).take n ≠ [] ∧
      ((Nat.toDigits 10 s).take n).head? ≠ some '0' := by
    intro n hn
    refine ⟨fun hnil => ?_, ?_⟩
    · rcases List.take_eq_nil_iff.mp hnil with hzero | hnil
      · omega
      · exact hne hnil
    · rw [List.head?_take, if_neg (by omega)]
      exact hhead
  unfold ofDecimal
  dsimp only
  split_ifs with hplain hpoint hsmall
  · refine ⟨fun c hc => ?_, fun _ => by simp, by simp [hne], Or.inr ?_⟩
    · exact (List.mem_append.mp hc).elim (hdigits c) (hzeros _ c)
    · rw [List.head?_append_of_ne_nil _ hne]
      exact hhead
  · obtain ⟨hnonempty, hleading⟩ := htake ((Nat.toDigits 10 s).length + e).toNat (by omega)
    exact ⟨fun c hc => hdigits c (List.mem_of_mem_take hc),
      fun c hc => hdigits c (List.mem_of_mem_drop hc), hnonempty, Or.inr hleading⟩
  · refine ⟨fun c hc => ?_, fun c hc => ?_, by simp, Or.inl rfl⟩
    · rw [List.mem_singleton.mp hc]
      rfl
    · exact (List.mem_append.mp hc).elim (hzeros _ c) (hdigits c)
  · obtain ⟨hnonempty, hleading⟩ := htake 1 one_pos
    exact ⟨fun c hc => hdigits c (List.mem_of_mem_take hc),
      fun c hc => hdigits c (List.mem_of_mem_drop hc), hnonempty, Or.inr hleading⟩

end Numeral

-- ---------------------------------------------------------------------------
-- The shortest decimal
-- ---------------------------------------------------------------------------

/-- `s * 10 ^ e`. -/
abbrev Decimal := ℕ × ℤ

def Decimal.value (d : Decimal) : ℚ := d.1 * 10 ^ d.2

/-- The decimals of `k` digits next to `x`: below and above. -/
def neighbours (x : ℚ) (k : ℕ) : Decimal × Decimal :=
  let e := Int.log 10 x + 1 - k
  let s := ⌊x / 10 ^ e⌋.toNat
  ((s, e), if s + 1 = 10 ^ k then (1, e + k) else (s + 1, e))

/-- The decimal of `k` digits that is read as `x`; the closest one, the even one
of two. -/
def closest (x : ℚ) (k : ℕ) : Option Decimal :=
  let (below, above) := neighbours x k
  if roundDouble below.value = x then
    if roundDouble above.value = x then
      if above.value - x < x - below.value then some above
      else if x - below.value < above.value - x then some below
      else if below.1 % 2 = 0 then some below else some above
    else some below
  else if roundDouble above.value = x then some above
  else none

/-- All the digits of a double. -/
def exactDecimal (x : ℚ) : Decimal :=
  (⌊x / 10 ^ min 0 (lastPlace x)⌋.toNat, min 0 (lastPlace x))

/-- Seventeen digits are enough for every double. -/
def shortest (x : ℚ) : Decimal := ((List.range' 1 17).findSome? (closest x)).getD (exactDecimal x)

/-- `Number::toString` -/
def Num.toText : Num → List Char
  | .nan => "NaN".toList
  | .inf negative => if negative then "-Infinity".toList else "Infinity".toList
  | .fin q =>
    if q = 0 then ['0']
    else (Numeral.ofDecimal (decide (q < 0)) (shortest |q|).1 (shortest |q|).2).text

/-- The characters of numbers. -/
def NumberChar (c : Char) : Prop := c.isDigit = true ∨ c ∈ ['+', '-', '.', 'e', 'E']

theorem Numeral.Sound.numberChar {x : Numeral} (h : x.Sound) : ∀ c ∈ x.text, NumberChar c := by
  have hexponent : ∀ c ∈ Numeral.exponentText x.exponent, NumberChar c := by
    cases x.exponent with
    | none => exact fun _ hc => by cases hc
    | some e =>
      intro c hc
      rcases List.mem_cons.mp hc with rfl | hc
      · exact Or.inr (by decide)
      · rcases List.mem_cons.mp hc with rfl | hc
        · exact Or.inr (by split <;> decide)
        · exact Or.inl (Numeral.digits_toDigits _ c hc)
  have hfraction : ∀ c ∈ Numeral.fractionText x.fraction, NumberChar c := by
    intro c hc
    unfold Numeral.fractionText at hc
    split at hc
    · cases hc
    · rcases List.mem_cons.mp hc with rfl | hc
      · exact Or.inr (by decide)
      · exact Or.inl (h.fraction c hc)
  intro c hc
  rcases List.mem_append.mp hc with hc | hc
  · split at hc
    · obtain rfl := List.mem_singleton.mp hc
      exact Or.inr (by decide)
    · cases hc
  · rcases List.mem_append.mp hc with hc | hc
    · exact Or.inl (h.whole c hc)
    · exact (List.mem_append.mp hc).elim (hfraction c) (hexponent c)

theorem roundDouble_closest {x : ℚ} {k : ℕ} {d : Decimal} (h : closest x k = some d) :
    roundDouble d.value = x := by
  unfold closest at h
  dsimp only at h
  split_ifs at h with hbelow habove
  all_goals cases h; assumption

/-- A double has finitely many digits. -/
theorem exactDecimal_value {x : ℚ} (hpos : 0 < x) (hx : roundDouble x = x) :
    (exactDecimal x).value = x := by
  obtain ⟨m, hm⟩ : ∃ m : ℤ, x = m * 2 ^ lastPlace x := ⟨_, hx.symm⟩
  obtain ⟨n, hn⟩ : ∃ n : ℤ, x / 10 ^ min 0 (lastPlace x) = n := by
    rcases le_total 0 (lastPlace x) with hnonneg | hneg
    · obtain ⟨k, hk⟩ := Int.eq_ofNat_of_zero_le hnonneg
      refine ⟨m * 2 ^ k, ?_⟩
      rw [min_eq_left hnonneg, zpow_zero, div_one]
      conv_lhs => rw [hm, hk, zpow_natCast]
      push_cast
      rfl
    · obtain ⟨k, hk⟩ := Int.exists_eq_neg_ofNat hneg
      refine ⟨m * 5 ^ k, ?_⟩
      rw [min_eq_right hneg]
      have hscale : (2 : ℚ) ^ (-(k : ℤ)) / 10 ^ (-(k : ℤ)) = 5 ^ k := by
        rw [← div_zpow, show (2 / 10 : ℚ) = 5⁻¹ by norm_num, inv_zpow', neg_neg, zpow_natCast]
      rw [hk] at hm ⊢
      rw [hm, mul_div_assoc, hscale]
      push_cast
      rfl
  have hnpos : 0 ≤ n := by
    have : (0 : ℚ) ≤ n := by
      rw [← hn]
      positivity
    exact_mod_cast this
  have hcast : ((n.toNat : ℕ) : ℚ) = n := by
    exact_mod_cast Int.toNat_of_nonneg hnpos
  rw [Decimal.value, exactDecimal]
  dsimp only
  rw [hn, Int.floor_intCast, hcast, ← hn, div_mul_cancel₀]
  positivity

/-- **What is written is read back.** -/
theorem roundDouble_shortest {x : ℚ} (hpos : 0 < x) (hx : roundDouble x = x) :
    roundDouble (shortest x).value = x := by
  unfold shortest
  cases hfound : (List.range' 1 17).findSome? (closest x) with
  | some d =>
    obtain ⟨k, -, hk⟩ := List.exists_of_findSome?_eq_some hfound
    exact roundDouble_closest hk
  | none =>
    rw [Option.getD_none, exactDecimal_value hpos hx, hx]

theorem roundDouble_zero : roundDouble 0 = 0 := by
  exact_mod_cast roundDouble_intCast (n := 0) (by norm_num)

/-- Rounding treats both signs alike. -/
theorem roundHalfEven_neg (q : ℚ) : roundHalfEven (-q) = -roundHalfEven q := by
  have hlow := Int.floor_le q
  have hhigh := Int.lt_floor_add_one q
  by_cases hq : q = ⌊q⌋
  · rw [hq, roundHalfEven_intCast, ← Int.cast_neg, roundHalfEven_intCast]
  have hlow' : (⌊q⌋ : ℚ) < q := lt_of_le_of_ne hlow (Ne.symm hq)
  have hfloor : ⌊-q⌋ = -⌊q⌋ - 1 := by
    rw [Int.floor_eq_iff]
    push_cast
    constructor <;> linarith
  unfold roundHalfEven
  dsimp only
  rw [hfloor]
  push_cast
  split_ifs
  all_goals first | omega | linarith

theorem roundDouble_neg (q : ℚ) : roundDouble (-q) = -roundDouble q := by
  unfold roundDouble lastPlace
  rw [abs_neg, neg_div, roundHalfEven_neg]
  push_cast
  ring

/-- A finite double. -/
def IsDouble (q : ℚ) : Prop := Num.of q = .fin q

theorem IsDouble.round {q : ℚ} (h : IsDouble q) : roundDouble q = q ∧ |q| < 2 ^ 1024 := by
  unfold IsDouble Num.of at h
  split at h
  · cases h
  · rename_i hlt
    have hround : roundDouble q = q := Num.fin.inj h
    rw [hround, not_le] at hlt
    exact ⟨hround, hlt⟩

theorem shortest_pos {x : ℚ} (hpos : 0 < x) (hx : roundDouble x = x) : 0 < (shortest x).1 := by
  rw [Nat.pos_iff_ne_zero]
  intro hzero
  have hshortest := roundDouble_shortest hpos hx
  rw [Decimal.value, hzero, Nat.cast_zero, zero_mul, roundDouble_zero] at hshortest
  exact hpos.ne hshortest

theorem IsDouble.abs {q : ℚ} (h : IsDouble q) : roundDouble |q| = |q| := by
  rcases abs_cases q with ⟨habs, -⟩ | ⟨habs, -⟩
  · rw [habs, h.round.1]
  · rw [habs, roundDouble_neg, h.round.1]

theorem numberChar_toText {q : ℚ} (h : IsDouble q) :
    (Num.fin q).toText ≠ [] ∧ ∀ c ∈ (Num.fin q).toText, NumberChar c := by
  rw [Num.toText]
  split
  · exact ⟨List.cons_ne_nil _ _, fun c hc => Or.inl (List.mem_singleton.mp hc ▸ rfl)⟩
  · rename_i hne
    have hsound := Numeral.sound_ofDecimal (decide (q < 0))
      (shortest_pos (abs_pos.mpr hne) h.abs) (shortest |q|).2
    refine ⟨fun hnil => ?_, hsound.numberChar⟩
    have hread := Numeral.readNumber_text hsound
    rw [hnil] at hread
    cases hread

/-- **Numbers and their texts.** -/
theorem readNumber_toText {q : ℚ} (h : IsDouble q) :
    readNumber (Num.fin q).toText = some (.fin q) := by
  rw [Num.toText]
  split
  · rename_i hzero
    subst hzero
    decide +kernel
  · rename_i hne
    have hpos := shortest_pos (abs_pos.mpr hne) h.abs
    have hshortest := roundDouble_shortest (abs_pos.mpr hne) h.abs
    rw [Numeral.readNumber_text (Numeral.sound_ofDecimal _ hpos _), Numeral.value_ofDecimal]
    have hread : roundDouble ((if decide (q < 0) then -1 else 1) *
        ((shortest |q|).1 * 10 ^ (shortest |q|).2)) = q := by
      rw [Decimal.value] at hshortest
      by_cases hneg : q < 0
      · rw [if_pos (decide_eq_true hneg), neg_one_mul, roundDouble_neg, hshortest, abs_of_neg hneg,
          neg_neg]
      · rw [if_neg (by simpa using hneg), one_mul, hshortest, abs_of_nonneg (not_lt.mp hneg)]
    rw [Num.of, hread, if_neg (not_le.mpr h.round.2)]

-- ---------------------------------------------------------------------------
-- What is read is a double
-- ---------------------------------------------------------------------------

theorem roundDouble_of_multiple {x : ℚ} {n : ℤ} (h : x = n * 2 ^ lastPlace x) :
    roundDouble x = x := by
  have hquot : x / 2 ^ lastPlace x = n := by
    rw [div_eq_iff (by positivity)]
    exact h
  rw [roundDouble, hquot, roundHalfEven_intCast]
  exact h.symm

theorem roundHalfEven_le (q : ℚ) : roundHalfEven q ≤ ⌊q⌋ + 1 := by
  unfold roundHalfEven
  dsimp only
  split_ifs <;> omega

/-- A significand has at most 53 bits, or is the next power of two. -/
theorem abs_significand (q : ℚ) : |roundHalfEven (q / 2 ^ lastPlace q)| ≤ 2 ^ 53 := by
  have hlog : Int.log 2 |q| + 1 ≤ 53 + lastPlace q := by
    unfold lastPlace
    omega
  have hq : |q / 2 ^ lastPlace q| < 2 ^ (53 : ℤ) := by
    rw [abs_div, abs_of_pos (show (0 : ℚ) < 2 ^ lastPlace q by positivity),
      div_lt_iff₀ (by positivity), ← zpow_add₀ two_ne_zero]
    have hlow := Int.lt_zpow_succ_log_self (show 1 < 2 by decide) |q|
    exact (by exact_mod_cast hlow : |q| < 2 ^ (Int.log 2 |q| + 1)).trans_le
      (zpow_le_zpow_right₀ (by norm_num) hlog)
  obtain ⟨hlow, hhigh⟩ := abs_lt.mp hq
  have hfloor : -2 ^ 53 ≤ ⌊q / 2 ^ lastPlace q⌋ := by
    rw [Int.le_floor]
    push_cast
    exact_mod_cast hlow.le
  have hfloor' : ⌊q / 2 ^ lastPlace q⌋ < 2 ^ 53 := by
    rw [Int.floor_lt]
    exact_mod_cast hhigh
  have hle := floor_le_roundHalfEven (q / 2 ^ lastPlace q)
  have hge := roundHalfEven_le (q / 2 ^ lastPlace q)
  rw [abs_le]
  constructor <;> omega

theorem roundDouble_significand {m e : ℤ} (hm : |m| ≤ 2 ^ 53) (he : -1074 ≤ e) :
    roundDouble ((m : ℚ) * 2 ^ e) = m * 2 ^ e := by
  by_cases hzero : m = 0
  · simp [hzero, roundDouble_zero]
  have hpos : (0 : ℚ) < |(m : ℚ) * 2 ^ e| := by positivity
  rcases hm.lt_or_eq with hlt | heq
  · have hlog : Int.log 2 |(m : ℚ) * 2 ^ e| < 53 + e := by
      rw [← Int.lt_zpow_iff_log_lt (by decide) hpos, abs_mul,
        abs_of_pos (show (0 : ℚ) < 2 ^ e by positivity)]
      push_cast
      rw [zpow_add₀ two_ne_zero]
      exact mul_lt_mul_of_pos_right (by exact_mod_cast hlt) (by positivity)
    have hplace : lastPlace ((m : ℚ) * 2 ^ e) ≤ e := by
      unfold lastPlace
      omega
    obtain ⟨k, hk⟩ := Int.le.dest hplace
    refine roundDouble_of_multiple (n := m * 2 ^ k) ?_
    push_cast
    rw [mul_assoc, ← zpow_natCast, ← zpow_add₀ two_ne_zero, add_comm, hk]
  · have hplace : lastPlace ((m : ℚ) * 2 ^ e) = e + 1 := by
      have hvalue : |(m : ℚ) * 2 ^ e| = ((2 : ℕ) : ℚ) ^ (53 + e) := by
        rw [abs_mul, abs_of_pos (show (0 : ℚ) < 2 ^ e by positivity), ← Int.cast_abs, heq]
        push_cast
        rw [zpow_add₀ two_ne_zero]
        norm_num
      rw [lastPlace, hvalue, Int.log_zpow (by decide)]
      omega
    have heven : (m : ℚ) = ((m / 2 : ℤ) : ℚ) * 2 := by
      have hm2 : m = m / 2 * 2 := by
        rcases abs_cases m with ⟨habs, -⟩ | ⟨habs, -⟩ <;> omega
      exact_mod_cast hm2
    refine roundDouble_of_multiple (n := m / 2) ?_
    rw [hplace, zpow_add_one₀ two_ne_zero]
    nth_rewrite 1 [heven]
    ring

/-- **Rounding a double changes nothing.** -/
theorem roundDouble_roundDouble (q : ℚ) : roundDouble (roundDouble q) = roundDouble q :=
  roundDouble_significand (abs_significand q) (le_max_right _ _)

/-- A finite Number value is a double. -/
theorem isDouble_of {p q : ℚ} (h : Num.of p = .fin q) : IsDouble q := by
  unfold Num.of at h
  split at h
  · cases h
  · rename_i hlt
    obtain rfl := Num.fin.inj h
    rw [IsDouble, Num.of, roundDouble_roundDouble, if_neg hlt]

theorem isDouble_readNumber {t : List Char} {q : ℚ} (h : readNumber t = some (.fin q)) :
    IsDouble q := by
  unfold readNumber at h
  split at h
  · exact isDouble_of (Option.some.inj h)
  · cases h

theorem readNumber_ne_nan {t : List Char} : readNumber t ≠ some .nan := by
  unfold readNumber Num.of
  split_ifs <;> simp

end Js
