import Mathlib.Data.Int.Log
import Mathlib.Data.List.TakeWhile
import Mathlib.Data.Rat.Floor
import Mathlib.Tactic

/-!
# Numbers of ECMAScript

Number values (`Num`; the two zeros are one), rounding to the nearest double,
the readers of numbers in strings — `parseInt` with radix 10, `parseFloat` and
`Number` — and the 32-bit operators.
-/

namespace Js

inductive Num where
  | nan
  | inf (negative : Bool)
  | fin (q : ℚ)
  deriving DecidableEq, Repr

/-! ## Rounding -/

/-- The nearest integer, the even one of two. -/
def roundHalfEven (q : ℚ) : ℤ :=
  let f := ⌊q⌋
  if q - f < 1 / 2 then f else if 1 / 2 < q - f then f + 1 else if f % 2 = 0 then f else f + 1

/-- The exponent of the last place of a double near `q`. -/
def lastPlace (q : ℚ) : ℤ := max (Int.log 2 |q| - 52) (-1074)

def roundDouble (q : ℚ) : ℚ := roundHalfEven (q / 2 ^ lastPlace q) * 2 ^ lastPlace q

/-- The Number value of a rational. -/
def Num.of (q : ℚ) : Num :=
  if 2 ^ 1024 ≤ |roundDouble q| then .inf (decide (q < 0)) else .fin (roundDouble q)

theorem roundHalfEven_intCast (n : ℤ) : roundHalfEven n = n := by
  simp [roundHalfEven]

/-- Rounding to a multiple of a power of two keeps its multiples. -/
theorem roundHalfEven_mul {n : ℤ} {e : ℤ} (he : e ≤ 0) :
    (roundHalfEven ((n : ℚ) / 2 ^ e) : ℚ) * 2 ^ e = n := by
  obtain ⟨k, rfl⟩ := Int.exists_eq_neg_ofNat he
  have hint : (n : ℚ) / 2 ^ (-(k : ℤ)) = ((n * 2 ^ k : ℤ) : ℚ) := by
    rw [zpow_neg, div_inv_eq_mul, zpow_natCast]
    push_cast
    rfl
  rw [hint, roundHalfEven_intCast, zpow_neg, zpow_natCast]
  push_cast
  rw [mul_assoc, mul_inv_cancel₀ (by positivity), mul_one]

/-- Safe integers are doubles. -/
theorem roundDouble_intCast {n : ℤ} (hn : |n| < 2 ^ 53) : roundDouble n = n := by
  refine roundHalfEven_mul (max_le ?_ (by decide))
  have hlog : Int.log 2 |(n : ℚ)| < 53 := by
    rcases eq_or_ne n 0 with rfl | hne
    · simp
    · refine (Int.lt_zpow_iff_log_lt (by decide) (by positivity)).mp ?_
      exact_mod_cast hn
  omega

theorem floor_le_roundHalfEven (q : ℚ) : ⌊q⌋ ≤ roundHalfEven q := by
  unfold roundHalfEven
  dsimp only
  split_ifs <;> omega

/-- A rational of at least a power of two is not rounded below it. -/
theorem le_roundDouble {q : ℚ} {k : ℕ} (hq : 2 ^ k ≤ q) : 2 ^ k ≤ roundDouble q := by
  have hpos : 0 < q := lt_of_lt_of_le (by positivity) hq
  have hlog : (k : ℤ) ≤ Int.log 2 q :=
    (Int.zpow_le_iff_le_log (by decide) hpos).mp (by exact_mod_cast hq)
  have hlast : lastPlace q = Int.log 2 q - 52 := by
    rw [lastPlace, abs_of_pos hpos]
    omega
  have hscale : (2 : ℚ) ^ (52 : ℤ) * 2 ^ lastPlace q = 2 ^ Int.log 2 q := by
    rw [← zpow_add₀ two_ne_zero, hlast]
    congr 1
    omega
  have hfloor : (2 : ℤ) ^ 52 ≤ ⌊q / 2 ^ lastPlace q⌋ := by
    have hlow : (2 : ℚ) ^ Int.log 2 q ≤ q := by
      exact_mod_cast Int.zpow_log_le_self (show 1 < 2 by decide) hpos
    rw [Int.le_floor, le_div_iff₀ (by positivity)]
    exact_mod_cast hscale.le.trans hlow
  have hround : (2 : ℚ) ^ (52 : ℤ) ≤ roundHalfEven (q / 2 ^ lastPlace q) := by
    exact_mod_cast hfloor.trans (floor_le_roundHalfEven _)
  calc (2 : ℚ) ^ k ≤ 2 ^ Int.log 2 q := by
        rw [← zpow_natCast]
        exact zpow_le_zpow_right₀ (by norm_num) hlog
    _ = 2 ^ (52 : ℤ) * 2 ^ lastPlace q := hscale.symm
    _ ≤ roundDouble q := mul_le_mul_of_nonneg_right hround (by positivity)

theorem Num.of_intCast {n : ℤ} (hn : |n| < 2 ^ 53) : Num.of n = .fin n := by
  rw [Num.of, roundDouble_intCast hn, if_neg]
  rw [not_le]
  calc |(n : ℚ)| < 2 ^ 53 := by exact_mod_cast hn
    _ ≤ 2 ^ 1024 := pow_le_pow_right₀ (by norm_num) (by norm_num)

/-! ## White space -/

/-- White space and line terminators. -/
def isSpace (c : Char) : Bool :=
  c ∈ ['\t', '\n', '\x0B', '\x0C', '\r', ' ', '\u00A0', '\u1680', '\u2028', '\u2029', '\u202F',
    '\u205F', '\u3000', '\uFEFF'] || ('\u2000' ≤ c && c ≤ '\u200A')

def trimStart (s : List Char) : List Char := s.dropWhile isSpace

def trim (s : List Char) : List Char := (trimStart (trimStart s).reverse).reverse

theorem trimStart_suffix (s : List Char) : trimStart s <:+ s := List.dropWhile_suffix _

theorem trim_isPrefix (s : List Char) : trim s <+: trimStart s := by
  have hrest := trimStart_suffix (trimStart s).reverse
  rwa [← List.reverse_prefix, List.reverse_reverse] at hrest

theorem trim_infix (s : List Char) : trim s <:+: s :=
  (trim_isPrefix s).isInfix.trans (trimStart_suffix s).isInfix

theorem head_trimStart {s : List Char} {c : Char} (h : (trimStart s).head? = some c) :
    isSpace c = false := by
  have hhead := List.head?_dropWhile_not isSpace s
  rw [trimStart] at h
  rw [h] at hhead
  simpa using hhead

theorem getLast_trim {s : List Char} {c : Char} (h : (trim s).getLast? = some c) :
    isSpace c = false := by
  rw [trim, List.getLast?_reverse] at h
  exact head_trimStart h

theorem trimStart_eq_self {s : List Char} (h : ∀ c, s.head? = some c → isSpace c = false) :
    trimStart s = s := by
  cases s with
  | nil => rfl
  | cons c s => exact List.dropWhile_cons_of_neg (by simp [h c rfl])

/-- What is left begins as it did. -/
theorem head_trim {s : List Char} {c : Char} (h : (trim s).head? = some c) : isSpace c = false := by
  obtain ⟨rest, hrest⟩ := trim_isPrefix s
  refine head_trimStart (s := s) (c := c) ?_
  rw [← hrest, List.head?_append, h]
  rfl

theorem trim_eq_self {s : List Char} (hhead : ∀ c, s.head? = some c → isSpace c = false)
    (hlast : ∀ c, s.getLast? = some c → isSpace c = false) : trim s = s := by
  rw [trim, trimStart_eq_self hhead, trimStart_eq_self, List.reverse_reverse]
  intro c hc
  rw [List.head?_reverse] at hc
  exact hlast c hc

theorem trim_trim (s : List Char) : trim (trim s) = trim s :=
  trim_eq_self (fun _ => head_trim) fun _ => getLast_trim

/-! ## Reading numbers -/

def digitValue (c : Char) : ℕ := c.toNat - 48

/-- The value of decimal digits. -/
def decimalValue (ds : List Char) : ℕ := ds.foldl (fun v c => 10 * v + digitValue c) 0

/-- A sign, if there is one. -/
def scanSign (s : List Char) : ℚ × List Char :=
  match s with
  | '-' :: rest => (-1, rest)
  | '+' :: rest => (1, rest)
  | rest => (1, rest)

/-- `parseInt(s, 10)` -/
def parseInt (s : List Char) : Num :=
  let (sign, rest) := scanSign (trimStart s)
  let digits := rest.takeWhile Char.isDigit
  if digits = [] then .nan else .of (sign * decimalValue digits)

theorem isSpace_digit {c : Char} (h : c.isDigit = true) : isSpace c = false := by
  have hall : ∀ n < 10, isSpace (Char.ofNat (48 + n)) = false := by decide +kernel
  obtain ⟨hlow, hhigh⟩ := Char.isDigit_iff_toNat.mp h
  have hlow' : 48 ≤ c.toNat := hlow
  have hhigh' : c.toNat ≤ 57 := hhigh
  have hspace := hall (c.toNat - 48) (by omega)
  rwa [Nat.add_sub_cancel' hlow', Char.ofNat_toNat] at hspace

theorem ne_of_digit {c d : Char} (h : c.isDigit = true) (hd : d.isDigit = false) : c ≠ d := by
  rintro rfl
  rw [h] at hd
  cases hd

theorem trimStart_digits {s : List Char} (hdigits : ∀ c ∈ s, c.isDigit = true) :
    trimStart s = s := by
  match s with
  | [] => rfl
  | c :: rest => simp [trimStart, isSpace_digit (hdigits c List.mem_cons_self)]

theorem trim_digits {s : List Char} (hdigits : ∀ c ∈ s, c.isDigit = true) : trim s = s := by
  rw [trim, trimStart_digits hdigits, trimStart_digits, List.reverse_reverse]
  exact fun c hc => hdigits c (List.mem_reverse.mp hc)

theorem scanSign_digits {s : List Char} (hdigits : ∀ c ∈ s, c.isDigit = true) :
    scanSign s = (1, s) := by
  unfold scanSign
  split
  · exact absurd rfl (ne_of_digit (hdigits '-' List.mem_cons_self) (by decide))
  · exact absurd rfl (ne_of_digit (hdigits '+' List.mem_cons_self) (by decide))
  · rfl

/-- Digits are read whole. -/
theorem parseInt_digits {s : List Char} (hne : s ≠ []) (hdigits : ∀ c ∈ s, c.isDigit = true)
    (hlt : decimalValue s < 2 ^ 53) : parseInt s = .fin (decimalValue s) := by
  have hwhole : s.takeWhile Char.isDigit = s := List.takeWhile_eq_self_iff.mpr hdigits
  unfold parseInt
  rw [trimStart_digits hdigits, scanSign_digits hdigits]
  dsimp only
  rw [hwhole, if_neg hne, one_mul]
  refine Num.of_intCast (n := decimalValue s) ?_
  rw [abs_of_nonneg (by omega)]
  exact_mod_cast hlt

/-- `e`, a sign and digits; without digits there is no exponent. -/
def scanExponent (s : List Char) : ℤ × List Char :=
  match s with
  | [] => (0, s)
  | c :: rest =>
    if c = 'e' || c = 'E' then
      let (sign, rest') := scanSign rest
      let digits := rest'.takeWhile Char.isDigit
      if digits = [] then (0, s)
      else (if sign < 0 then -decimalValue digits else decimalValue digits,
        rest'.dropWhile Char.isDigit)
    else (0, s)

/-- The fraction of a decimal literal: the digits behind a point. -/
def scanFraction (s : List Char) : List Char × List Char :=
  match s with
  | '.' :: rest => (rest.takeWhile Char.isDigit, rest.dropWhile Char.isDigit)
  | rest => ([], rest)

/-- The longest decimal literal at the start of `s`, and what is behind it. -/
def scanDecimal (s : List Char) : Option (Num × List Char) :=
  let (sign, rest) := scanSign s
  if "Infinity".toList.isPrefixOf rest then some (.inf (decide (sign < 0)), rest.drop 8)
  else
    let whole := rest.takeWhile Char.isDigit
    let (fraction, rest) := scanFraction (rest.dropWhile Char.isDigit)
    if whole = [] && fraction = [] then none
    else
      let (exponent, rest) := scanExponent rest
      some (.of (sign * decimalValue (whole ++ fraction) * 10 ^ (exponent - fraction.length)), rest)

/-- `parseFloat(s)` -/
def parseFloat (s : List Char) : Num :=
  match scanDecimal (trimStart s) with
  | some (value, _) => value
  | none => .nan

/-- The value of a digit in a base of at most 16. -/
def baseDigit (base : ℕ) (c : Char) : Option ℕ :=
  let v := if c.isDigit then digitValue c
    else if 'a' ≤ c && c ≤ 'f' then c.toNat - 87
    else if 'A' ≤ c && c ≤ 'F' then c.toNat - 55
    else 16
  if v < base then some v else none

def baseValue (base : ℕ) (s : List Char) : Num :=
  match s.mapM (baseDigit base) with
  | some [] => .nan
  | some ds => .of (ds.foldl (fun v d => base * v + d) 0 : ℕ)
  | none => .nan

/-- `Number(s)` -/
def number (s : List Char) : Num :=
  match trim s with
  | [] => .fin 0
  | '0' :: x :: rest =>
    if x = 'x' || x = 'X' then baseValue 16 rest
    else if x = 'o' || x = 'O' then baseValue 8 rest
    else if x = 'b' || x = 'B' then baseValue 2 rest
    else match scanDecimal ('0' :: x :: rest) with
      | some (value, []) => value
      | _ => .nan
  | s => match scanDecimal s with
      | some (value, []) => value
      | _ => .nan

theorem scanDecimal_digits {s : List Char} (hne : s ≠ []) (hdigits : ∀ c ∈ s, c.isDigit = true)
    (hlt : decimalValue s < 2 ^ 53) : scanDecimal s = some (.fin (decimalValue s), []) := by
  have hinfinity : "Infinity".toList.isPrefixOf s = false := by
    rw [← Bool.not_eq_true, List.isPrefixOf_iff_prefix]
    intro hprefix
    have hmem : 'I' ∈ s := hprefix.subset (by decide)
    exact absurd (hdigits 'I' hmem) (by decide)
  have hwhole : s.takeWhile Char.isDigit = s := List.takeWhile_eq_self_iff.mpr hdigits
  have hrest : s.dropWhile Char.isDigit = [] := List.dropWhile_eq_nil_iff.mpr hdigits
  have hvalue : Num.of (1 * (decimalValue s : ℚ) * 10 ^ ((0 : ℤ) - (0 : ℕ))) =
      .fin (decimalValue s) := by
    rw [one_mul, Nat.cast_zero, sub_zero, zpow_zero, mul_one]
    refine Num.of_intCast (n := decimalValue s) ?_
    rw [abs_of_nonneg (by omega)]
    exact_mod_cast hlt
  simp only [scanDecimal, scanSign_digits hdigits, hinfinity, hwhole, hrest, scanFraction,
    scanExponent, hne, decide_false, Bool.false_and, Bool.false_eq_true, if_false,
    List.append_nil, List.length_nil]
  rw [hvalue]

theorem number_digits {s : List Char} (hne : s ≠ []) (hdigits : ∀ c ∈ s, c.isDigit = true)
    (hlt : decimalValue s < 2 ^ 53) : number s = .fin (decimalValue s) := by
  have hscan := scanDecimal_digits hne hdigits hlt
  unfold number
  rw [trim_digits hdigits]
  split
  · exact absurd rfl hne
  · rename_i x rest
    have hx : x.isDigit = true := hdigits x (List.mem_cons_of_mem _ List.mem_cons_self)
    have hother (d : Char) (hd : d.isDigit = false) : x ≠ d := ne_of_digit hx hd
    simp [hother 'x' (by decide), hother 'X' (by decide), hother 'o' (by decide),
      hother 'O' (by decide), hother 'b' (by decide), hother 'B' (by decide), hscan]
  · rw [hscan]

/-! ## Operators -/

/-- ToInt32, on Number values. -/
def toInt32 (x : Num) : ℤ :=
  match x with
  | .fin q => Int.bmod (if q < 0 then ⌈q⌉ else ⌊q⌋) (2 ^ 32)
  | _ => 0

/-- `x << k` -/
def shl (x : Num) (k : ℕ) : ℤ := Int.bmod (toInt32 x * 2 ^ k) (2 ^ 32)

/-- `x >>> 0` -/
def toUint32 (x : Num) : ℤ := toInt32 x % 2 ^ 32

/-- `x & y` -/
def bitAnd (x y : Num) : ℤ := (BitVec.ofInt 32 (toInt32 x) &&& BitVec.ofInt 32 (toInt32 y)).toInt

/-- `n + x`, with an integer on the left. -/
def addInt (n : ℤ) (x : Num) : Num :=
  match x with
  | .fin q => .of (n + q)
  | other => other

/-- `x + y` -/
def Num.add : Num → Num → Num
  | .fin x, .fin y => .of (x + y)
  | .nan, _ | _, .nan => .nan
  | .inf x, .inf y => if x = y then .inf x else .nan
  | .inf x, .fin _ | .fin _, .inf x => .inf x

/-- `x * 2 ** k`: exact, unless it overflows. -/
def Num.shiftUp (k : ℕ) : Num → Num
  | .fin q => if 2 ^ 1024 ≤ |q * 2 ^ k| then .inf (decide (q < 0)) else .fin (q * 2 ^ k)
  | other => other

/-! ## Comparison -/

/-- `===` -/
def Num.strictEq (x y : Num) : Bool := x = y && x ≠ .nan

/-- `Math.max` of two values. -/
def Num.max : Num → Num → Num
  | .nan, _ | _, .nan => .nan
  | .inf true, y | y, .inf true => y
  | .inf false, _ | _, .inf false => .inf false
  | .fin x, .fin y => if x ≤ y then .fin y else .fin x

@[simp] theorem Num.nan_max (y : Num) : Num.max .nan y = .nan := by
  cases y <;> rfl

@[simp] theorem Num.max_nan (x : Num) : Num.max x .nan = .nan := by
  cases x <;> rfl

@[simp] theorem Num.lowest_max (y : Num) : Num.max (.inf true) y = y := by
  cases y <;> rfl

@[simp] theorem Num.max_lowest (x : Num) : Num.max x (.inf true) = x := by
  rcases x with - | (- | -) | - <;> rfl

@[simp] theorem Num.highest_max_fin (y : ℚ) : Num.max (.inf false) (.fin y) = .inf false := rfl

@[simp] theorem Num.fin_max_highest (x : ℚ) : Num.max (.fin x) (.inf false) = .inf false := rfl

@[simp] theorem Num.highest_max_highest : Num.max (.inf false) (.inf false) = .inf false := rfl

@[simp] theorem Num.fin_max_fin (x y : ℚ) : Num.max (.fin x) (.fin y) = .fin (x ⊔ y) := by
  rw [Num.max, max_def]
  split <;> rfl

/-- The order of the arguments of `Math.max` is immaterial. -/
theorem Num.max_right_comm (x y z : Num) :
    Num.max (Num.max x y) z = Num.max (Num.max x z) y := by
  rcases x with - | (- | -) | x <;> rcases y with - | (- | -) | y <;>
    rcases z with - | (- | -) | z <;> simp [sup_comm, sup_left_comm]

end Js
