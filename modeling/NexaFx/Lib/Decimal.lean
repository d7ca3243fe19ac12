import Mathlib.Data.Rat.Floor
import Mathlib.Tactic

/-!
# Decimal rounding

Decimal libraries print a number with a fixed number of decimals by rounding
to the nearest representable value, ties **away from zero**. This module
develops that rounding over `ℚ`, where sums are exact:

* `roundHalfAway` — nearest integer, ties away from zero;
* `toFixed` — the same at a given number of decimals;
* `shift` — what a rounded addition adds to an integer. The key fact
  (`roundHalfAway_add`) is that this does **not** depend on the integer, as
  long as the sum does not round below zero: the tie rule of a nonnegative
  result is always "up".

Adding `d` and then `-d` therefore restores the integer exactly unless `d`
lies halfway between two integers, in which case one unit is gained
(`shift_add_shift_neg`).
-/

namespace Decimal

/-! ## Rounding -/

/-- Nearest integer, ties away from zero. -/
def roundHalfAway (x : ℚ) : ℤ :=
  if 0 ≤ x then ⌊x + 1 / 2⌋ else -⌊-x + 1 / 2⌋

/-- `x` rounded to `dp` decimals. -/
def toFixed (dp : ℕ) (x : ℚ) : ℚ :=
  roundHalfAway (x * 10 ^ dp) / 10 ^ dp

/-- What a rounded addition of `d` adds to an integer. -/
def shift (d : ℚ) : ℤ := ⌊d + 1 / 2⌋

/-- `d` lies exactly halfway between two integers. -/
def Tie (d : ℚ) : Prop := Int.fract d = 1 / 2

instance (d : ℚ) : Decidable (Tie d) := inferInstanceAs (Decidable (_ = _))

@[simp] theorem roundHalfAway_intCast (n : ℤ) : roundHalfAway (n : ℚ) = n := by
  have hpos : ⌊(n : ℚ) + 1 / 2⌋ = n := by
    rw [Int.floor_intCast_add]
    norm_num
  have hneg : ⌊-(n : ℚ) + 1 / 2⌋ = -n := by
    rw [← Int.cast_neg, Int.floor_intCast_add]
    norm_num
  unfold roundHalfAway
  split
  · exact hpos
  · rw [hneg, neg_neg]

/-- Which numbers round to `n`. -/
theorem roundHalfAway_eq_iff {x : ℚ} {n : ℤ} : roundHalfAway x = n ↔
    |x - n| < 1 / 2 ∨ (x - n = 1 / 2 ∧ n < 0) ∨ (x - n = -(1 / 2) ∧ 0 < n) := by
  unfold roundHalfAway
  rw [abs_lt]
  split
  · rename_i hx
    rw [Int.floor_eq_iff]
    constructor
    · rintro ⟨hle, hlt⟩
      by_cases htie : x - n = -(1 / 2)
      · have hpos : (0 : ℚ) < n := by linarith
        exact .inr (.inr ⟨htie, by exact_mod_cast hpos⟩)
      · have hne : -(1 / 2) < x - n := lt_of_le_of_ne (by linarith) (Ne.symm htie)
        exact .inl ⟨hne, by linarith⟩
    · rintro (⟨hgt, hlt⟩ | ⟨htie, hn⟩ | ⟨htie, hn⟩)
      · constructor <;> linarith
      · have hle : (n : ℚ) ≤ -1 := by exact_mod_cast Int.le_sub_one_of_lt hn
        linarith
      · constructor <;> linarith
  · rename_i hx
    rw [not_le] at hx
    rw [neg_eq_iff_eq_neg, Int.floor_eq_iff]
    push_cast
    constructor
    · rintro ⟨hle, hlt⟩
      by_cases htie : x - n = 1 / 2
      · have hneg : (n : ℚ) < 0 := by linarith
        exact .inr (.inl ⟨htie, by exact_mod_cast hneg⟩)
      · have hne : x - n < 1 / 2 := lt_of_le_of_ne (by linarith) htie
        exact .inl ⟨by linarith, hne⟩
    · rintro (⟨hgt, hlt⟩ | ⟨htie, hn⟩ | ⟨htie, hn⟩)
      · constructor <;> linarith
      · constructor <;> linarith
      · have hle : (1 : ℚ) ≤ n := by exact_mod_cast hn
        linarith
/-- A number that does not round below zero is rounded half up. -/
theorem roundHalfAway_of_gt {x : ℚ} (h : -(1 / 2) < x) :
    roundHalfAway x = ⌊x + 1 / 2⌋ := by
  unfold roundHalfAway
  split
  · rfl
  · rename_i hneg
    have hleft : ⌊-x + 1 / 2⌋ = 0 := by
      rw [Int.floor_eq_iff]
      push_cast
      constructor <;> linarith
    have hright : ⌊x + 1 / 2⌋ = 0 := by
      rw [Int.floor_eq_iff]
      push_cast
      constructor <;> linarith
    rw [hleft, hright, neg_zero]

/-- The rounded value is negative exactly at or below minus one half. -/
theorem roundHalfAway_nonneg {x : ℚ} : 0 ≤ roundHalfAway x ↔ -(1 / 2) < x := by
  constructor
  · intro h
    by_contra hle
    push Not at hle
    have hfloor : 1 ≤ ⌊-x + 1 / 2⌋ := by
      rw [Int.le_floor]
      push_cast
      linarith
    have hx : ¬ (0 : ℚ) ≤ x := by linarith
    rw [roundHalfAway, if_neg hx] at h
    omega
  · intro h
    rw [roundHalfAway_of_gt h, Int.floor_nonneg]
    linarith

/-- **Rounded addition to an integer.** Whatever the integer, an addition whose
result does not round below zero adds the same `shift d`. -/
theorem roundHalfAway_add {n : ℤ} {d : ℚ} (h : 0 ≤ roundHalfAway (n + d)) :
    roundHalfAway (n + d) = n + shift d := by
  rw [roundHalfAway_of_gt (roundHalfAway_nonneg.mp h), shift, add_assoc,
    Int.floor_intCast_add]

@[simp] theorem shift_intCast (n : ℤ) : shift (n : ℚ) = n := by
  rw [shift, Int.floor_intCast_add]
  norm_num

theorem shift_le (d : ℚ) : (shift d : ℚ) ≤ d + 1 / 2 := Int.floor_le _

theorem lt_shift (d : ℚ) : d - 1 / 2 < (shift d : ℚ) := by
  have h := Int.lt_floor_add_one (d + 1 / 2)
  unfold shift
  linarith

/-- A rounded addition is accepted exactly when the integer covers the shift. -/
theorem roundHalfAway_add_nonneg {n : ℤ} {d : ℚ} (h : -(1 / 2) < (n : ℚ) + d) :
    0 ≤ n + shift d := by
  have hnn := roundHalfAway_nonneg.mpr h
  rwa [roundHalfAway_add hnn] at hnn

/-! ## There and back -/

/-- Adding and subtracting an integer plus a fractional part `f`: the two
roundings cancel except at `f = 1/2`, where both go up. -/
theorem shift_add_shift_neg_of_fract (n : ℤ) {f : ℚ} (h0 : 0 ≤ f) (h1 : f < 1) :
    shift (n + f) + shift (-(n + f)) = if f = 1 / 2 then 1 else 0 := by
  have hup : shift ((n : ℚ) + f) = n + ⌊f + 1 / 2⌋ := by
    rw [shift, add_assoc, Int.floor_intCast_add]
  have hdown : shift (-((n : ℚ) + f)) = -n + ⌊-f + 1 / 2⌋ := by
    rw [shift, neg_add, ← Int.cast_neg, add_assoc, Int.floor_intCast_add]
  rw [hup, hdown]
  rcases lt_trichotomy f (1 / 2) with hlt | rfl | hgt
  · have ha : ⌊f + 1 / 2⌋ = 0 := by
      rw [Int.floor_eq_iff]
      push_cast
      constructor <;> linarith
    have hb : ⌊-f + 1 / 2⌋ = 0 := by
      rw [Int.floor_eq_iff]
      push_cast
      constructor <;> linarith
    rw [if_neg hlt.ne, ha, hb]
    ring
  · norm_num
  · have ha : ⌊f + 1 / 2⌋ = 1 := by
      rw [Int.floor_eq_iff]
      push_cast
      constructor <;> linarith
    have hb : ⌊-f + 1 / 2⌋ = -1 := by
      rw [Int.floor_eq_iff]
      push_cast
      constructor <;> linarith
    rw [if_neg hgt.ne', ha, hb]
    ring

/-- Adding `d` and then `-d` gains one unit at a tie and nothing otherwise. -/
theorem shift_add_shift_neg (d : ℚ) :
    shift d + shift (-d) = if Tie d then 1 else 0 := by
  have h := shift_add_shift_neg_of_fract ⌊d⌋ (Int.fract_nonneg d) (Int.fract_lt_one d)
  rw [Int.floor_add_fract] at h
  exact h

end Decimal
