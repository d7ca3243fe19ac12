import NexaFx.Model.Candles

/-!
# Hourly candles are correct

`toOhlc` sorts the points, groups them by the ISO text of their hour and sorts
the candles by that text. Among the years 0 to 9999 the text of an hour is
greater the later the hour (`hourText_lt`), so the groups are the hours and
the candles come out in the order of the hours: `toOhlc_eq` says the result is
the list of candles of the hours that contain a point.
-/

namespace NexaFx

namespace RateSnapshots

variable {R : Type}

/-- The hour of a point, counted from 1970. -/
def hourOf (p : RatePoint R) : ℤ := p.recordedAt / HOUR_MS

/-- What the candle `c` of hour `h` must say of the points. -/
structure IsCandle [LinearOrder R] (points : List (RatePoint R)) (h : ℤ) (c : OhlcCandle R) : Prop where
  bucket : c.bucket = IsoDate.toISOString (h * HOUR_MS)
  opens : ∃ p ∈ points, hourOf p = h ∧ c.open = some p.rate ∧
    ∀ q ∈ points, hourOf q = h → p.recordedAt ≤ q.recordedAt
  closes : ∃ p ∈ points, hourOf p = h ∧ c.close = some p.rate ∧
    ∀ q ∈ points, hourOf q = h → q.recordedAt ≤ p.recordedAt
  highest : ∃ p ∈ points, hourOf p = h ∧ c.high = some p.rate ∧
    ∀ q ∈ points, hourOf q = h → q.rate ≤ p.rate
  lowest : ∃ p ∈ points, hourOf p = h ∧ c.low = some p.rate ∧
    ∀ q ∈ points, hourOf q = h → p.rate ≤ q.rate
  within : ∃ o hi lo cl, c.open = some o ∧ c.high = some hi ∧ c.low = some lo ∧
    c.close = some cl ∧ lo ≤ o ∧ o ≤ hi ∧ lo ≤ cl ∧ cl ≤ hi

/-! ## The sorts -/

theorem timeOrder_iff {a b : RatePoint R} :
    timeOrder a b = true ↔ a.recordedAt ≤ b.recordedAt := by
  rw [timeOrder, decide_eq_true_iff]
  omega

/-- The points in the order of their times. -/
def byTime (points : List (RatePoint R)) : List (RatePoint R) := points.mergeSort timeOrder

theorem byTime_perm (points : List (RatePoint R)) : (byTime points).Perm points :=
  List.mergeSort_perm points timeOrder

theorem byTime_sorted (points : List (RatePoint R)) :
    (byTime points).Pairwise fun a b => a.recordedAt ≤ b.recordedAt := by
  have hsorted : (points.mergeSort timeOrder).Pairwise _ := List.pairwise_mergeSort
    (fun a b c hab hbc => by rw [timeOrder_iff] at *; omega)
    (fun a b => by rw [Bool.or_eq_true, timeOrder_iff, timeOrder_iff]; omega) points
  exact hsorted.imp timeOrder_iff.mp

/-- Points with distinct times have one order. -/
theorem byTime_eq {points points' : List (RatePoint R)} (hperm : points'.Perm points)
    (htimes : (points.map RatePoint.recordedAt).Nodup) : byTime points' = byTime points := by
  refine List.Perm.eq_of_pairwise (fun a b ha hb hab hba => ?_) (byTime_sorted points')
    (byTime_sorted points) ((byTime_perm points').trans (hperm.trans (byTime_perm points).symm))
  have ha' : a ∈ points := hperm.mem_iff.mp ((byTime_perm points').mem_iff.mp ha)
  have hb' : b ∈ points := (byTime_perm points).mem_iff.mp hb
  exact List.inj_on_of_nodup_map htimes ha' hb' (Int.le_antisymm hab hba)

theorem bucketOrder_iff {a b : OhlcCandle R} : bucketOrder a b = true ↔ a.bucket ≤ b.bucket :=
  decide_eq_true_iff

theorem sorted_byBucket (cs : List (OhlcCandle R)) :
    (cs.mergeSort bucketOrder).Pairwise fun a b => a.bucket ≤ b.bucket := by
  have hsorted : (cs.mergeSort bucketOrder).Pairwise _ := List.pairwise_mergeSort
    (fun a b c hab hbc => by rw [bucketOrder_iff] at *; exact le_trans hab hbc)
    (fun a b => by rw [Bool.or_eq_true, bucketOrder_iff, bucketOrder_iff]; exact le_total _ _) cs
  exact hsorted.imp bucketOrder_iff.mp

/-! ## The texts of the hours -/

def hourText (h : ℤ) : List Char := IsoDate.toISOString (h * HOUR_MS)

theorem hourKey_eq (p : RatePoint R) : hourKey p = hourText (hourOf p) := rfl

/-- The top of the hour of a time with a year of four digits is one too. -/
theorem fourDigitYear_hour {p : RatePoint R} (h : IsoDate.FourDigitYear p.recordedAt) :
    IsoDate.FourDigitYear (hourOf p * HOUR_MS) := by
  obtain ⟨hlow, hhigh⟩ := h
  have hzero : IsoDate.timeFromYear 0 = -62167219200000 := by decide
  unfold IsoDate.FourDigitYear hourOf HOUR_MS
  omega

theorem hourText_lt {p q : RatePoint R} (hp : IsoDate.FourDigitYear p.recordedAt)
    (hq : IsoDate.FourDigitYear q.recordedAt) (h : hourOf p < hourOf q) :
    hourText (hourOf p) < hourText (hourOf q) := by
  refine IsoDate.toISOString_lt ?_ (fourDigitYear_hour hp) (fourDigitYear_hour hq)
  unfold HOUR_MS
  omega

theorem hourKey_inj {p q : RatePoint R} (hp : IsoDate.FourDigitYear p.recordedAt)
    (hq : IsoDate.FourDigitYear q.recordedAt) : hourKey p = hourKey q ↔ hourOf p = hourOf q := by
  rw [hourKey_eq, hourKey_eq]
  refine ⟨fun h => ?_, fun h => by rw [h]⟩
  rcases lt_trichotomy (hourOf p) (hourOf q) with hlt | heq | hgt
  · exact absurd (hourText_lt hp hq hlt) (h ▸ List.lt_irrefl _)
  · exact heq
  · exact absurd (hourText_lt hq hp hgt) (h ▸ List.lt_irrefl _)

/-! ## The hours -/

/-- The points of hour `h` in the order of their times. -/
def ofHour (points : List (RatePoint R)) (h : ℤ) : List (RatePoint R) :=
  (byTime points).filter fun p => decide (hourOf p = h)

theorem mem_ofHour {points : List (RatePoint R)} {h : ℤ} {p : RatePoint R} :
    p ∈ ofHour points h ↔ p ∈ points ∧ hourOf p = h := by
  rw [ofHour, List.mem_filter, decide_eq_true_iff, (byTime_perm points).mem_iff]

theorem ofHour_sorted (points : List (RatePoint R)) (h : ℤ) :
    (ofHour points h).Pairwise fun a b => a.recordedAt ≤ b.recordedAt :=
  (byTime_sorted points).filter _

/-- The hours that contain a point, in order. -/
def hours (points : List (RatePoint R)) : List ℤ := (points.map hourOf).toFinset.sort (· ≤ ·)

theorem mem_hours {points : List (RatePoint R)} {h : ℤ} :
    h ∈ hours points ↔ ∃ p ∈ points, hourOf p = h := by
  simp [hours]

theorem hours_sorted (points : List (RatePoint R)) : (hours points).Pairwise (· < ·) :=
  (Finset.sortedLT_sort _).pairwise

/-- The points with the text of an hour are the points of that hour. -/
theorem withKey_hour {points : List (RatePoint R)}
    (hyears : ∀ p ∈ points, IsoDate.FourDigitYear p.recordedAt) {p : RatePoint R}
    (hp : p ∈ points) :
    Grouping.withKey hourKey (byTime points) (hourKey p) = ofHour points (hourOf p) := by
  refine List.filter_congr fun q hq => ?_
  have hq' : q ∈ points := (byTime_perm points).mem_iff.mp hq
  rw [decide_eq_decide]
  exact hourKey_inj (hyears q hq') (hyears p hp)

theorem hourText_sorted {points : List (RatePoint R)}
    (hyears : ∀ p ∈ points, IsoDate.FourDigitYear p.recordedAt) :
    (hours points).Pairwise fun h h' => hourText h < hourText h' := by
  refine (hours_sorted points).imp_of_mem fun {h h'} hh hh' hlt => ?_
  obtain ⟨p, hp, rfl⟩ := mem_hours.mp hh
  obtain ⟨q, hq, rfl⟩ := mem_hours.mp hh'
  exact hourText_lt (hyears p hp) (hyears q hq) hlt

/-- The groups of the sorted points are the points of each hour. -/
theorem group_perm {points : List (RatePoint R)}
    (hyears : ∀ p ∈ points, IsoDate.FourDigitYear p.recordedAt) :
    (Grouping.group hourKey (byTime points)).Perm
      ((hours points).map fun h => (hourText h, ofHour points h)) := by
  have hnodup : ((hours points).map fun h => (hourText h, ofHour points h)).Nodup := by
    refine List.pairwise_map.mpr ((hourText_sorted hyears).imp fun hlt heq => ?_)
    rw [(Prod.mk.inj heq).1] at hlt
    exact List.lt_irrefl _ hlt
  refine (List.perm_ext_iff_of_nodup
    (List.Nodup.of_map _ (Grouping.nodup_group hourKey (byTime points))) hnodup).mpr fun g => ?_
  rw [Grouping.mem_group, List.mem_map]
  constructor
  · rintro ⟨⟨p, hp, hkey⟩, hg⟩
    have hp' : p ∈ points := (byTime_perm points).mem_iff.mp hp
    refine ⟨hourOf p, mem_hours.mpr ⟨p, hp', rfl⟩, ?_⟩
    rw [← withKey_hour hyears hp', hkey, ← hg, ← hourKey_eq, hkey]
  · rintro ⟨h, hh, rfl⟩
    obtain ⟨p, hp, rfl⟩ := mem_hours.mp hh
    exact ⟨⟨p, (byTime_perm points).mem_iff.mpr hp, rfl⟩, (withKey_hour hyears hp).symm⟩

theorem exists_open {group : List (RatePoint R)} (hne : group ≠ [])
    (hsorted : group.Pairwise fun a b => a.recordedAt ≤ b.recordedAt) :
    ∃ p ∈ group, (group.map RatePoint.rate).head? = some p.rate ∧
      ∀ q ∈ group, p.recordedAt ≤ q.recordedAt := by
  match group with
  | p :: rest =>
    refine ⟨p, List.mem_cons_self .., rfl, fun q hq => ?_⟩
    rcases List.mem_cons.mp hq with rfl | hq
    · exact le_refl _
    · exact List.rel_of_pairwise_cons hsorted hq

theorem exists_close {group : List (RatePoint R)} (hne : group ≠ [])
    (hsorted : group.Pairwise fun a b => a.recordedAt ≤ b.recordedAt) :
    ∃ p ∈ group, (group.map RatePoint.rate).getLast? = some p.rate ∧
      ∀ q ∈ group, q.recordedAt ≤ p.recordedAt := by
  obtain ⟨rest, p, rfl⟩ := (List.eq_nil_or_concat group).resolve_left hne
  rw [List.concat_eq_append] at *
  refine ⟨p, List.mem_append_right _ (List.mem_singleton_self p), by simp, fun q hq => ?_⟩
  rcases List.mem_append.mp hq with hq | hq
  · exact (List.pairwise_append.mp hsorted).2.2 q hq p (List.mem_singleton_self p)
  · rw [List.mem_singleton.mp hq]

/-! ## The candles -/

variable [LinearOrder R]

def candleAt (points : List (RatePoint R)) (h : ℤ) : OhlcCandle R :=
  candle (hourText h, ofHour points h)

theorem exists_high {group : List (RatePoint R)} (hne : group ≠ []) :
    ∃ p ∈ group, (group.map RatePoint.rate).max? = some p.rate ∧
      ∀ q ∈ group, q.rate ≤ p.rate := by
  cases hmax : (group.map RatePoint.rate).max? with
  | none => simp [hne] at hmax
  | some m =>
    obtain ⟨hm, hall⟩ := List.max?_eq_some_iff.mp hmax
    obtain ⟨p, hp, rfl⟩ := List.mem_map.mp hm
    exact ⟨p, hp, rfl, fun q hq => hall _ (List.mem_map_of_mem hq)⟩

theorem exists_low {group : List (RatePoint R)} (hne : group ≠ []) :
    ∃ p ∈ group, (group.map RatePoint.rate).min? = some p.rate ∧
      ∀ q ∈ group, p.rate ≤ q.rate := by
  cases hmin : (group.map RatePoint.rate).min? with
  | none => simp [hne] at hmin
  | some m =>
    obtain ⟨hm, hall⟩ := List.min?_eq_some_iff.mp hmin
    obtain ⟨p, hp, rfl⟩ := List.mem_map.mp hm
    exact ⟨p, hp, rfl, fun q hq => hall _ (List.mem_map_of_mem hq)⟩

/-- The candle of an hour says what it must. -/
theorem isCandle {points : List (RatePoint R)} {h : ℤ} (hh : ∃ p ∈ points, hourOf p = h) :
    IsCandle points h (candleAt points h) := by
  obtain ⟨p₀, hp₀⟩ := hh
  have hne : ofHour points h ≠ [] := List.ne_nil_of_mem (mem_ofHour.mpr hp₀)
  have hmem {q : RatePoint R} (hq : q ∈ points) (hqh : hourOf q = h) : q ∈ ofHour points h :=
    mem_ofHour.mpr ⟨hq, hqh⟩
  obtain ⟨o, ho, hopen, hfirst⟩ := exists_open hne (ofHour_sorted points h)
  obtain ⟨cl, hcl, hclose, hlast⟩ := exists_close hne (ofHour_sorted points h)
  obtain ⟨hi, hhi, hhigh, hmax⟩ := exists_high hne
  obtain ⟨lo, hlo, hlow, hmin⟩ := exists_low hne
  exact {
    bucket := rfl
    opens := ⟨o, (mem_ofHour.mp ho).1, (mem_ofHour.mp ho).2, hopen,
      fun q hq hqh => hfirst q (hmem hq hqh)⟩
    closes := ⟨cl, (mem_ofHour.mp hcl).1, (mem_ofHour.mp hcl).2, hclose,
      fun q hq hqh => hlast q (hmem hq hqh)⟩
    highest := ⟨hi, (mem_ofHour.mp hhi).1, (mem_ofHour.mp hhi).2, hhigh,
      fun q hq hqh => hmax q (hmem hq hqh)⟩
    lowest := ⟨lo, (mem_ofHour.mp hlo).1, (mem_ofHour.mp hlo).2, hlow,
      fun q hq hqh => hmin q (hmem hq hqh)⟩
    within := ⟨o.rate, hi.rate, lo.rate, cl.rate, hopen, hhigh, hlow, hclose,
      hmin o ho, hmax o ho, hmin cl hcl, hmax cl hcl⟩ }

/-- **The candles of the hours**, in the order of the hours. -/
theorem toOhlc_eq {points : List (RatePoint R)}
    (hyears : ∀ p ∈ points, IsoDate.FourDigitYear p.recordedAt) :
    toOhlc points = (hours points).map (candleAt points) := by
  have hperm : (toOhlc points).Perm ((hours points).map (candleAt points)) := by
    have hmap := (group_perm hyears).map candle
    rw [List.map_map] at hmap
    exact (List.mergeSort_perm _ bucketOrder).trans hmap
  have hsorted : ((hours points).map (candleAt points)).Pairwise fun a b => a.bucket < b.bucket :=
    List.pairwise_map.mpr (hourText_sorted hyears)
  refine List.Perm.eq_of_pairwise (fun a b ha hb hab hba => ?_) (sorted_byBucket _)
    (hsorted.imp le_of_lt) hperm
  have hbucket : a.bucket = b.bucket := le_antisymm hab hba
  have hnodup : (((hours points).map (candleAt points)).map OhlcCandle.bucket).Nodup := by
    refine List.pairwise_map.mpr (hsorted.imp fun {a b} hlt heq => ?_)
    rw [heq] at hlt
    exact List.lt_irrefl _ hlt
  exact List.inj_on_of_nodup_map hnodup (hperm.mem_iff.mp ha) hb hbucket

/-- **Hourly candles are correct**: for points with distinct times of the
years 0 to 9999 there is one candle for each hour that contains a point, in
the order of the hours, and the order of the points does not matter. -/
theorem toOhlc_correct (points : List (RatePoint R))
    (htimes : (points.map RatePoint.recordedAt).Nodup)
    (hyears : ∀ p ∈ points, IsoDate.FourDigitYear p.recordedAt) :
    (∃ hs : List ℤ, hs.Pairwise (· < ·) ∧ (∀ h, h ∈ hs ↔ ∃ p ∈ points, hourOf p = h) ∧
      List.Forall₂ (IsCandle points) hs (toOhlc points)) ∧
    ∀ points' : List (RatePoint R), points'.Perm points → toOhlc points' = toOhlc points := by
  constructor
  · refine ⟨hours points, hours_sorted points, fun h => mem_hours, ?_⟩
    rw [toOhlc_eq hyears, List.forall₂_map_right_iff, List.forall₂_same]
    exact fun h hh => isCandle (mem_hours.mp hh)
  · intro points' hperm
    show (((byTime points').foldl _ []).map candle).mergeSort bucketOrder = _
    rw [byTime_eq hperm htimes]
    rfl

/-- Three points of two hours, out of order. -/
theorem toOhlc_correct_three :
    ((([⟨3, 7200000⟩, ⟨1, 3600000⟩, ⟨2, 3600001⟩] : List (RatePoint ℚ)).map
        RatePoint.recordedAt).Nodup) ∧
    toOhlc ([⟨3, 7200000⟩, ⟨1, 3600000⟩, ⟨2, 3600001⟩] : List (RatePoint ℚ)) =
      toOhlc [⟨1, 3600000⟩, ⟨2, 3600001⟩, ⟨3, 7200000⟩] := by
  have hyears : ∀ p ∈ ([⟨1, 3600000⟩, ⟨2, 3600001⟩, ⟨3, 7200000⟩] : List (RatePoint ℚ)),
      IsoDate.FourDigitYear p.recordedAt := by
    unfold IsoDate.FourDigitYear
    decide +kernel
  exact ⟨by decide +kernel,
    (toOhlc_correct _ (by decide +kernel) hyears).2 _ (by decide +kernel)⟩

end RateSnapshots

end NexaFx
