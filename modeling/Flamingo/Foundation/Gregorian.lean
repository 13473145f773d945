import Flamingo.Foundation.Date

set_option autoImplicit false

/-! # The year, the month and the day of a date

`Date.dayNumber` numbers the days; here is the way back. 400 years have 146097 days, so a division
gives the year or one of the two before it (`yearOf_bounds`); the month is the last one that has
begun.
-/

namespace Date

/-! ## The year -/

def yearOf (n : Int) : Int :=
  let year := n * 400 / 146097
  if daysBeforeYear (year + 2) ≤ n then year + 2
  else if daysBeforeYear (year + 1) ≤ n then year + 1
  else year

theorem yearOf_bounds (n : Int) :
    daysBeforeYear (yearOf n) ≤ n ∧ n < daysBeforeYear (yearOf n + 1) := by
  have hlow : daysBeforeYear (n * 400 / 146097) ≤ n := by
    unfold daysBeforeYear
    omega
  have hhigh : n < daysBeforeYear (n * 400 / 146097 + 3) := by
    unfold daysBeforeYear
    omega
  unfold yearOf
  dsimp only
  split_ifs with h2 h1
  · rw [add_assoc]
    exact ⟨h2, hhigh⟩
  · rw [add_assoc]
    exact ⟨h1, Int.not_le.mp h2⟩
  · exact ⟨hlow, Int.not_le.mp h1⟩

theorem yearOf_pos {n : Int} (h : 0 ≤ n) : 1 ≤ yearOf n := by
  by_contra hlt
  have hbefore := (yearOf_bounds n).2
  have hle : daysBeforeYear (yearOf n + 1) ≤ 0 := by
    unfold daysBeforeYear
    omega
  omega

theorem daysBeforeYear_succ (year : Int) :
    daysBeforeYear (year + 1) = daysBeforeYear year + if isLeap year then 366 else 365 := by
  have hleap : isLeap year = true ↔ year % 4 = 0 ∧ (year % 100 ≠ 0 ∨ year % 400 = 0) := by
    simp [isLeap]
  unfold daysBeforeYear
  split_ifs with h
  · rw [hleap] at h
    omega
  · rw [hleap] at h
    omega

/-! ## The month -/

theorem daysBeforeMonth_one (year : Int) : daysBeforeMonth year 1 = 0 := rfl

theorem daysBeforeMonth_succ (year : Int) {month : Nat} (h : 1 ≤ month) :
    daysBeforeMonth year (month + 1) = daysBeforeMonth year month + daysInMonth year month := by
  obtain ⟨m, rfl⟩ := Nat.exists_eq_add_of_le' h
  simp [daysBeforeMonth, List.range_succ]

/-- The months fill the year. -/
theorem daysBeforeMonth_thirteen (year : Int) :
    daysBeforeMonth year 13 = if isLeap year then 366 else 365 := by
  rw [daysBeforeMonth]
  cases hleap : isLeap year <;> simp [List.range_succ, daysInMonth, hleap]

/-- The month of the day `k` of a year, counted from 0. -/
def monthOf (year k : Int) : Nat := Nat.findGreatest (fun m => daysBeforeMonth year (m + 1) ≤ k) 11 + 1

theorem monthOf_bounds {year k : Int} (h0 : 0 ≤ k) (h1 : k < if isLeap year then 366 else 365) :
    (1 ≤ monthOf year k ∧ monthOf year k ≤ 12) ∧ daysBeforeMonth year (monthOf year k) ≤ k ∧
      k < daysBeforeMonth year (monthOf year k + 1) := by
  have hle := Nat.findGreatest_le (P := fun m => daysBeforeMonth year (m + 1) ≤ k) 11
  refine ⟨⟨Nat.le_add_left 1 _, Nat.succ_le_succ hle⟩, ?_, ?_⟩
  · exact Nat.findGreatest_spec (P := fun m => daysBeforeMonth year (m + 1) ≤ k) (m := 0)
      (Nat.zero_le 11) (by rw [daysBeforeMonth_one]; exact h0)
  · by_cases hlast : monthOf year k = 12
    · rw [hlast, daysBeforeMonth_thirteen]
      exact h1
    · -- the next month has not begun
      have hlt : Nat.findGreatest (fun m => daysBeforeMonth year (m + 1) ≤ k) 11 + 1 ≤ 11 := by
        unfold monthOf at hlast
        omega
      exact Int.not_le.mp (Nat.findGreatest_is_greatest (Nat.lt_succ_self _) hlt)

/-! ## The date -/

/-- The day of the year, counted from 0. -/
def dayOfYear (n : Int) : Int := n - daysBeforeYear (yearOf n)

theorem dayOfYear_bounds (n : Int) :
    0 ≤ dayOfYear n ∧ dayOfYear n < if isLeap (yearOf n) then 366 else 365 := by
  obtain ⟨hlow, hhigh⟩ := yearOf_bounds n
  rw [daysBeforeYear_succ] at hhigh
  unfold dayOfYear
  omega

def month (n : Int) : Nat := monthOf (yearOf n) (dayOfYear n)

/-- The day of the month. -/
def dayOfMonth (n : Int) : Int := dayOfYear n - daysBeforeMonth (yearOf n) (month n) + 1

theorem month_bounds (n : Int) : 1 ≤ month n ∧ month n ≤ 12 :=
  (monthOf_bounds (dayOfYear_bounds n).1 (dayOfYear_bounds n).2).1

theorem dayOfMonth_bounds (n : Int) :
    1 ≤ dayOfMonth n ∧ dayOfMonth n ≤ daysInMonth (yearOf n) (month n) := by
  obtain ⟨⟨hpos, -⟩, hlow, hhigh⟩ := monthOf_bounds (dayOfYear_bounds n).1 (dayOfYear_bounds n).2
  rw [daysBeforeMonth_succ _ hpos] at hhigh
  unfold dayOfMonth month
  omega

/-- **The number of a day** is that of its year, its month and its day of the month. -/
theorem dayNumber_civil (n : Int) : dayNumber (yearOf n) (month n) (dayOfMonth n) = n := by
  unfold dayNumber dayOfMonth dayOfYear
  ring

/-- The parts of a date make the date again. -/
theorem ofText_civil (n t : Int) :
    ofText (yearOf n) (month n) (dayOfMonth n) t = some (ofMasks n t) := by
  obtain ⟨hpos, hle⟩ := month_bounds n
  obtain ⟨hday, hdays⟩ := dayOfMonth_bounds n
  rw [ofText, if_pos ⟨by omega, by omega, hday, hdays⟩, Int.toNat_natCast, dayNumber_civil]

theorem daysInMonth_pos (year month : Int) : 0 < daysInMonth year month := by
  unfold daysInMonth
  split_ifs <;> omega

theorem daysBeforeMonth_nonneg (year : Int) (month : Nat) : 0 ≤ daysBeforeMonth year month := by
  apply List.sum_nonneg
  intro days hdays
  obtain ⟨i, -, rfl⟩ := List.mem_map.mp hdays
  exact (daysInMonth_pos year _).le

/-- The dates from the year 1 on are not negative. -/
theorem nonneg_of_ofText {year month d t date : Int} (hyear : 1 ≤ year) (ht : 0 ≤ t)
    (h : ofText year month d t = some date) : 0 ≤ date := by
  unfold ofText at h
  split_ifs at h with hrange
  obtain rfl := Option.some.inj h
  have hmonth := daysBeforeMonth_nonneg year month.toNat
  have hbefore : 0 ≤ daysBeforeYear year := by
    unfold daysBeforeYear
    omega
  have hday : 0 ≤ dayNumber year month.toNat d := by
    unfold dayNumber
    omega
  unfold ofMasks secondsOfDay
  omega

/-! ## One date for a day -/

theorem daysBeforeYear_mono {year year' : Int} (h : year ≤ year') :
    daysBeforeYear year ≤ daysBeforeYear year' := by
  unfold daysBeforeYear
  omega

theorem daysBeforeMonth_mono (year : Int) : Monotone (daysBeforeMonth year) := by
  apply monotone_nat_of_le_succ
  intro m
  rcases Nat.eq_zero_or_pos m with rfl | hpos
  · exact le_refl _
  · have hdays := daysInMonth_pos year m
    rw [daysBeforeMonth_succ year hpos]
    omega

theorem yearOf_eq {n year : Int} (hlow : daysBeforeYear year ≤ n)
    (hhigh : n < daysBeforeYear (year + 1)) : yearOf n = year := by
  obtain ⟨hlow', hhigh'⟩ := yearOf_bounds n
  rcases lt_trichotomy (yearOf n) year with hlt | heq | hgt
  · have hle := daysBeforeYear_mono (Int.add_one_le_of_lt hlt)
    omega
  · exact heq
  · have hle := daysBeforeYear_mono (Int.add_one_le_of_lt hgt)
    omega

theorem monthOf_eq {year k : Int} (h0 : 0 ≤ k) (h1 : k < if isLeap year then 366 else 365)
    {m : Nat} (hlow : daysBeforeMonth year m ≤ k) (hhigh : k < daysBeforeMonth year (m + 1)) :
    monthOf year k = m := by
  obtain ⟨-, hlow', hhigh'⟩ := monthOf_bounds h0 h1
  rcases lt_trichotomy (monthOf year k) m with hlt | heq | hgt
  · have hle := daysBeforeMonth_mono year (Nat.succ_le_of_lt hlt)
    simp only [Nat.succ_eq_add_one] at hle
    omega
  · exact heq
  · have hle := daysBeforeMonth_mono year (Nat.succ_le_of_lt hgt)
    simp only [Nat.succ_eq_add_one] at hle
    omega

/-- **The date of a day** whose number comes from a date of the calendar is that date. -/
theorem civil_dayNumber {year : Int} {m : Nat} {d : Int} (hm : 1 ≤ m ∧ m ≤ 12)
    (hd : 1 ≤ d ∧ d ≤ daysInMonth year m) :
    yearOf (dayNumber year m d) = year ∧ month (dayNumber year m d) = m ∧
      dayOfMonth (dayNumber year m d) = d := by
  have hbefore := daysBeforeMonth_nonneg year m
  have hnext : daysBeforeMonth year m + (d - 1) < daysBeforeMonth year (m + 1) := by
    rw [daysBeforeMonth_succ year hm.1]
    omega
  have hlength : daysBeforeMonth year (m + 1) ≤ if isLeap year then 366 else 365 := by
    rw [← daysBeforeMonth_thirteen]
    exact daysBeforeMonth_mono year (Nat.succ_le_succ hm.2)
  have hyear : yearOf (dayNumber year m d) = year := by
    apply yearOf_eq
    · unfold dayNumber
      omega
    · rw [daysBeforeYear_succ]
      unfold dayNumber
      omega
  have hday : dayOfYear (dayNumber year m d) = daysBeforeMonth year m + (d - 1) := by
    rw [dayOfYear, hyear]
    unfold dayNumber
    ring
  have hmonth : month (dayNumber year m d) = m := by
    rw [month, hyear, hday]
    exact monthOf_eq (by omega) (by omega) (by omega) hnext
  refine ⟨hyear, hmonth, ?_⟩
  rw [dayOfMonth, hday, hyear, hmonth]
  ring

end Date
