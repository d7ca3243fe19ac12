import Mathlib.Data.Char
import Mathlib.Data.List.Lex
import Mathlib.Tactic

/-!
# Dates and their texts

The calendar of ECMAScript dates on time values (milliseconds since 1970,
proleptic Gregorian) and `toISOString`. On the years 0 to 9999, whose texts
all have one shape, later times have greater texts (`toISOString_lt`).
-/

namespace IsoDate

/-! ## The calendar -/

def msPerDay : ℤ := 86400000

/-- Days from 1970 to the first day of year `y`. -/
def dayFromYear (y : ℤ) : ℤ :=
  365 * (y - 1970) + (y - 1969) / 4 - (y - 1901) / 100 + (y - 1601) / 400

def inLeapYear (y : ℤ) : Bool := y % 4 = 0 && (y % 100 ≠ 0 || y % 400 = 0)

/-- The year of a day by the mean length of a year, right up to one. -/
def meanYear (d : ℤ) : ℤ := 1970 + d * 400 / 146097

def yearFromDay (d : ℤ) : ℤ :=
  if dayFromYear (meanYear d + 1) ≤ d then meanYear d + 1
  else if d < dayFromYear (meanYear d) then meanYear d - 1
  else meanYear d

def dayWithinYear (d : ℤ) : ℕ := (d - dayFromYear (yearFromDay d)).toNat

/-- The days of the year before each month. -/
def monthStarts (leap : Bool) : List ℕ :=
  let l := if leap then 1 else 0
  [0, 31, 59 + l, 90 + l, 120 + l, 151 + l, 181 + l, 212 + l, 243 + l, 273 + l, 304 + l, 334 + l]

/-- The month of a day of the year, from 1. -/
def monthFromDay (leap : Bool) (d : ℕ) : ℕ := (monthStarts leap).countP (· ≤ d)

def dateFromDay (leap : Bool) (d : ℕ) : ℕ :=
  d + 1 - (monthStarts leap).getD (monthFromDay leap d - 1) 0

theorem dayFromYear_lt {y y' : ℤ} (h : y < y') : dayFromYear y < dayFromYear y' := by
  unfold dayFromYear
  omega

theorem dayFromYear_le {y y' : ℤ} (h : y ≤ y') : dayFromYear y ≤ dayFromYear y' := by
  unfold dayFromYear
  omega

/-- A day lies in its year. -/
theorem yearFromDay_spec (d : ℤ) :
    dayFromYear (yearFromDay d) ≤ d ∧ d < dayFromYear (yearFromDay d + 1) := by
  have hlow : dayFromYear (meanYear d - 1) ≤ d := by
    unfold dayFromYear meanYear
    omega
  have hhigh : d < dayFromYear (meanYear d + 1 + 1) := by
    unfold dayFromYear meanYear
    omega
  unfold yearFromDay
  generalize meanYear d = y at *
  split
  · rename_i h
    exact ⟨h, hhigh⟩
  · split
    · rename_i h
      exact ⟨hlow, by rwa [Int.sub_add_cancel]⟩
    · omega

theorem yearFromDay_le {d d' : ℤ} (h : d ≤ d') : yearFromDay d ≤ yearFromDay d' := by
  by_contra hlt
  have hyear := dayFromYear_le (show yearFromDay d' + 1 ≤ yearFromDay d by omega)
  have hd := yearFromDay_spec d
  have hd' := yearFromDay_spec d'
  omega

/-- Days are numbered within a year from 0 to at most 365. -/
theorem dayWithinYear_spec (d : ℤ) :
    dayFromYear (yearFromDay d) + dayWithinYear d = d ∧ dayWithinYear d < 366 := by
  obtain ⟨hlow, hhigh⟩ := yearFromDay_spec d
  have hlength : dayFromYear (yearFromDay d + 1) ≤ dayFromYear (yearFromDay d) + 366 := by
    unfold dayFromYear
    omega
  unfold dayWithinYear
  omega

theorem monthFromDay_le {leap : Bool} {d d' : ℕ} (h : d ≤ d') :
    monthFromDay leap d ≤ monthFromDay leap d' :=
  List.countP_mono_left fun m _ hm => by
    have := of_decide_eq_true hm
    exact decide_eq_true (by omega)

/-- The months and dates of the days of a year. -/
theorem monthStart_le : ∀ leap : Bool, ∀ d < 366,
    (monthStarts leap).getD (monthFromDay leap d - 1) 0 ≤ d ∧ monthFromDay leap d ≤ 12 ∧
      dateFromDay leap d ≤ 32 := by
  decide +kernel

/-- Within a month later days have later dates. -/
theorem dateFromDay_lt {leap : Bool} {d d' : ℕ} (h : d < d') (hd : d < 366)
    (hmonth : monthFromDay leap d = monthFromDay leap d') :
    dateFromDay leap d < dateFromDay leap d' := by
  have hstart := (monthStart_le leap d hd).1
  unfold dateFromDay
  rw [← hmonth]
  omega

/-! ## Texts of fixed width -/

def digit (n : ℕ) : Char := Char.ofNat (48 + n)

/-- The last `w` decimal digits of `n`. -/
def pad : ℕ → ℕ → List Char
  | 0, _ => []
  | w + 1, n => pad w (n / 10) ++ [digit (n % 10)]

@[simp] theorem length_pad (w n : ℕ) : (pad w n).length = w := by
  induction w generalizing n with
  | zero => rfl
  | succ w ih => rw [pad, List.length_append, ih]; rfl

/-- Texts of one length in front decide, and the rest where they agree. -/
theorem append_lt {a b c d : List Char} (hlen : a.length = b.length)
    (h : a < b ∨ a = b ∧ c < d) : a ++ c < b ++ d := by
  induction a generalizing b with
  | nil =>
    rw [List.length_eq_zero_iff.mp hlen.symm] at h ⊢
    rcases h with h | ⟨-, h⟩
    · exact absurd h (List.lt_irrefl _)
    · exact h
  | cons x a ih =>
    match b with
    | y :: b =>
      rw [List.cons_append, List.cons_append, List.cons_lt_cons_iff]
      rcases h with h | ⟨h, hcd⟩
      · rcases List.cons_lt_cons_iff.mp h with hxy | ⟨hxy, hab⟩
        · exact Or.inl hxy
        · exact Or.inr ⟨hxy, ih (Nat.succ.inj hlen) (Or.inl hab)⟩
      · obtain ⟨rfl, rfl⟩ := List.cons.inj h
        exact Or.inr ⟨rfl, ih rfl (Or.inr ⟨rfl, hcd⟩)⟩

theorem digit_lt {n m : ℕ} (h : n < m) (hm : m < 10) : digit n < digit m := by
  have hall : ∀ m < 10, ∀ n < m, digit n < digit m := by decide
  exact hall m hm n h

theorem pad_lt {w n m : ℕ} (h : n < m) (hm : m < 10 ^ w) : pad w n < pad w m := by
  induction w generalizing n m with
  | zero => omega
  | succ w ih =>
    rw [pad, pad]
    refine append_lt (by simp) ?_
    rcases Nat.lt_or_ge (n / 10) (m / 10) with hlt | hge
    · exact Or.inl (ih hlt (by omega))
    · have hq : n / 10 = m / 10 := by omega
      exact Or.inr ⟨by rw [hq], List.cons_lt_cons_iff.mpr (Or.inl (digit_lt (by omega) (by omega)))⟩

/-- A padded number, a separator and what follows. -/
theorem field_lt {w n m : ℕ} {sep : Char} {c d : List Char} (hle : n ≤ m) (hm : m < 10 ^ w)
    (h : n = m → c < d) : pad w n ++ sep :: c < pad w m ++ sep :: d := by
  refine append_lt (by simp) ?_
  rcases Nat.eq_or_lt_of_le hle with heq | hlt
  · exact Or.inr ⟨by rw [heq], List.cons_lt_cons_iff.mpr (Or.inr ⟨rfl, h heq⟩)⟩
  · exact Or.inl (pad_lt hlt hm)

/-! ## `toISOString` -/

/-- Four digits, or a sign and six where the year needs them. -/
def yearText (y : ℤ) : List Char :=
  if 0 ≤ y ∧ y < 10000 then pad 4 y.toNat
  else (if y < 0 then '-' else '+') :: pad 6 y.natAbs

def dayText (d : ℤ) : List Char :=
  let leap := inLeapYear (yearFromDay d)
  yearText (yearFromDay d) ++ '-' :: (pad 2 (monthFromDay leap (dayWithinYear d)) ++
    '-' :: pad 2 (dateFromDay leap (dayWithinYear d)))

/-- The time of day, from the milliseconds behind midnight. -/
def timeText (ms : ℕ) : List Char :=
  pad 2 (ms / 3600000) ++ ':' :: (pad 2 (ms / 60000 % 60) ++ ':' :: (pad 2 (ms / 1000 % 60) ++
    '.' :: (pad 3 (ms % 1000) ++ ['Z'])))

def toISOString (t : ℤ) : List Char :=
  dayText (t / msPerDay) ++ 'T' :: timeText (t % msPerDay).toNat

/-- The first time value of year `y`. -/
def timeFromYear (y : ℤ) : ℤ := dayFromYear y * msPerDay

/-- The times of the years 0 to 9999, whose texts have one shape. -/
def FourDigitYear (t : ℤ) : Prop := timeFromYear 0 ≤ t ∧ t < timeFromYear 10000

theorem FourDigitYear.year {t : ℤ} (h : FourDigitYear t) :
    0 ≤ yearFromDay (t / msPerDay) ∧ yearFromDay (t / msPerDay) < 10000 := by
  obtain ⟨hlow, hhigh⟩ := h
  obtain ⟨hd, hd'⟩ := yearFromDay_spec (t / msPerDay)
  generalize yearFromDay (t / msPerDay) = y at *
  unfold timeFromYear msPerDay at *
  constructor
  · by_contra hy
    have := dayFromYear_le (show y + 1 ≤ 0 by omega)
    omega
  · by_contra hy
    have := dayFromYear_le (show 10000 ≤ y by omega)
    omega

theorem timeText_lt {m m' : ℕ} (h : m < m') (hm' : m' < 86400000) : timeText m < timeText m' := by
  refine field_lt (by omega) (by omega) fun hhour => ?_
  refine field_lt (by omega) (by omega) fun hminute => ?_
  refine field_lt (by omega) (by omega) fun hsecond => ?_
  exact append_lt (by simp) (Or.inl (pad_lt (by omega) (by omega)))

/-- Two days of the same year. -/
theorem dayText_lt_of_year {d d' : ℤ} (h : d < d') (hyear : yearFromDay d = yearFromDay d') :
    dayText d < dayText d' := by
  obtain ⟨hd, hlt⟩ := dayWithinYear_spec d
  obtain ⟨hd', hlt'⟩ := dayWithinYear_spec d'
  have hwithin : dayWithinYear d < dayWithinYear d' := by
    rw [hyear] at hd
    omega
  unfold dayText
  rw [hyear]
  generalize inLeapYear (yearFromDay d') = leap
  refine append_lt rfl (Or.inr ⟨rfl, List.cons_lt_cons_iff.mpr (Or.inr ⟨rfl, ?_⟩)⟩)
  obtain ⟨-, hmonth', hdate'⟩ := monthStart_le leap _ hlt'
  refine field_lt (monthFromDay_le hwithin.le) (by omega) fun hmonth => ?_
  exact pad_lt (dateFromDay_lt hwithin hlt hmonth) (by omega)

theorem yearText_lt {y y' : ℤ} (h : y < y') (hy : 0 ≤ y) (hy' : y' < 10000) :
    yearText y < yearText y' := by
  unfold yearText
  rw [if_pos ⟨hy, by omega⟩, if_pos ⟨by omega, hy'⟩]
  exact pad_lt (by omega) (by omega)

theorem length_dayText {d : ℤ} (h : 0 ≤ yearFromDay d ∧ yearFromDay d < 10000) :
    (dayText d).length = 10 := by
  unfold dayText yearText
  rw [if_pos h]
  simp

theorem dayText_lt {d d' : ℤ} (h : d < d') (hd : 0 ≤ yearFromDay d)
    (hd' : yearFromDay d' < 10000) : dayText d < dayText d' := by
  rcases Int.lt_or_eq_of_le (yearFromDay_le h.le) with hyear | hyear
  · refine append_lt ?_ (Or.inl (yearText_lt hyear hd hd'))
    unfold yearText
    rw [if_pos ⟨hd, by omega⟩, if_pos ⟨by omega, hd'⟩]
    simp
  · exact dayText_lt_of_year h hyear

/-- **Texts of later times are greater**, among the years 0 to 9999. -/
theorem toISOString_lt {t t' : ℤ} (h : t < t') (ht : FourDigitYear t) (ht' : FourDigitYear t') :
    toISOString t < toISOString t' := by
  have hday : t / msPerDay ≤ t' / msPerDay := Int.ediv_le_ediv (by decide) h.le
  have hyear := ht.year
  have hyear' := ht'.year
  refine append_lt (by rw [length_dayText hyear, length_dayText hyear']) ?_
  rcases Int.lt_or_eq_of_le hday with hlt | heq
  · exact Or.inl (dayText_lt hlt hyear.1 hyear'.2)
  · refine Or.inr ⟨by rw [heq], List.cons_lt_cons_iff.mpr (Or.inr ⟨rfl, ?_⟩)⟩
    unfold msPerDay at *
    exact timeText_lt (by omega) (by omega)

example : toISOString 1709164800000 = "2024-02-29T00:00:00.000Z".toList := by decide +kernel

/-! ## The characters of a text -/

def IsoChar (c : Char) : Prop := c.isDigit = true ∨ c ∈ ['-', '+', ':', '.', 'T', 'Z']

instance (c : Char) : Decidable (IsoChar c) := inferInstanceAs (Decidable (_ ∨ _))

theorem isoChar_pad (w n : ℕ) : ∀ c ∈ pad w n, IsoChar c := by
  induction w generalizing n with
  | zero => exact fun c h => absurd h List.not_mem_nil
  | succ w ih =>
    have hall : ∀ m < 10, IsoChar (digit m) := by decide
    exact List.forall_mem_append.mpr
      ⟨ih _, List.forall_mem_singleton.mpr (hall _ (Nat.mod_lt _ (by omega)))⟩

theorem isoChar_yearText (y : ℤ) : ∀ c ∈ yearText y, IsoChar c := by
  unfold yearText
  split
  · exact isoChar_pad _ _
  · refine List.forall_mem_cons.mpr ⟨?_, isoChar_pad _ _⟩
    split <;> decide

theorem isoChar_toISOString (t : ℤ) : ∀ c ∈ toISOString t, IsoChar c := by
  have hsep (sep : Char) (l : List Char) (hs : IsoChar sep) (hl : ∀ c ∈ l, IsoChar c) :
      ∀ c ∈ sep :: l, IsoChar c := List.forall_mem_cons.mpr ⟨hs, hl⟩
  have happ (k l : List Char) (hk : ∀ c ∈ k, IsoChar c) (hl : ∀ c ∈ l, IsoChar c) :
      ∀ c ∈ k ++ l, IsoChar c := List.forall_mem_append.mpr ⟨hk, hl⟩
  have hday (d : ℤ) : ∀ c ∈ dayText d, IsoChar c :=
    happ _ _ (isoChar_yearText _) (hsep _ _ (by decide) (happ _ _ (isoChar_pad _ _)
      (hsep _ _ (by decide) (isoChar_pad _ _))))
  have htime (ms : ℕ) : ∀ c ∈ timeText ms, IsoChar c :=
    happ _ _ (isoChar_pad _ _) (hsep _ _ (by decide) (happ _ _ (isoChar_pad _ _)
      (hsep _ _ (by decide) (happ _ _ (isoChar_pad _ _) (hsep _ _ (by decide)
        (happ _ _ (isoChar_pad _ _) (List.forall_mem_singleton.mpr (by decide))))))))
  exact happ _ _ (hday _) (hsep _ _ (by decide) (htime _))

end IsoDate
