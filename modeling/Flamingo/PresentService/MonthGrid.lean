import Flamingo.Foundation.Gregorian
import Flamingo.PresentService.CalendarRuns

set_option autoImplicit false

/-! # The grid of a month

The cells of the collection view of `CelendarVC`: hidden ones up to the weekday of the first, and
then one for each day. The number of the days comes from a table in which February has 28; the
dates come from the text `year-month-day`.
-/

namespace Flamingo

/-- What `collectionView(cellForItemAt:)` sets of a cell: its text is a day or empty. -/
structure DateCell where
  isHidden : Bool
  date : Option Int
  isUserInteractionEnabled : Bool
  deriving DecidableEq, Repr

namespace CelendarVC

/-- The cell of an item, which is reset first and then set up. -/
def dateCell (now : Int) (vc : CelendarVC) (row : Nat) : DateCell :=
  if vc.firstWeeakDayMonth - 1 > row then ⟨true, none, true⟩
  else match Date.ofText vc.year (vc.month + 1) (vc.dayForCell row) 72000 with
    | none => ⟨false, some (vc.dayForCell row), true⟩
    | some cellDate =>
        if cellDate < now then ⟨false, some (vc.dayForCell row), false⟩
        else ⟨false, some (vc.dayForCell row), true⟩

/-- A cell can be tapped if it is neither hidden nor disabled. -/
theorem cellForItemAt_eq (now : Int) (vc : CelendarVC) (row : Nat) :
    vc.cellForItemAt now row
      = (!(vc.dateCell now row).isHidden && (vc.dateCell now row).isUserInteractionEnabled) := by
  unfold cellForItemAt dateCell
  split_ifs with hblank
  · rfl
  · cases Date.ofText vc.year (vc.month + 1) (vc.dayForCell row) 72000 with
    | none => rfl
    | some cellDate =>
        by_cases hpast : cellDate < now
        · simp [hpast]
        · simp [hpast]

/-- The cells of the grid. -/
def grid (now : Int) (vc : CelendarVC) : Option (List DateCell) :=
  vc.numberOfItemsInSection.map (fun count => (List.range count.toNat).map (vc.dateCell now))

/-- The screen shows its month: `firstDayMonth` was called for it. -/
def ShowsMonth (vc : CelendarVC) : Prop :=
  firstDayMonth vc.month vc.year = some vc.firstWeeakDayMonth

/-- The cells that are not hidden are the days of the month, in order, each in the column of its
weekday, and a day that is selected is the date of its cell. -/
structure MonthGrid (now : Int) (vc : CelendarVC) : Prop where
  days : ∃ cells, vc.grid now = some cells ∧
    (cells.filter (fun cell => !cell.isHidden)).map (·.date)
      = (List.range (Date.daysInMonth vc.year (vc.month + 1)).toNat).map
        (fun i : Nat => some (i + 1 : Int))
  column : ∀ (row : Nat) (d count : Int), vc.numberOfItemsInSection = some count → row < count →
    (vc.dateCell now row).date = some d →
    ∃ date, Date.ofText vc.year (vc.month + 1) d 0 = some date ∧
      (row : Int) % 7 = (Date.weekday date + 5) % 7 ∧ (vc.didSelectItemAt row).1.dateDate = date

/-! ## The first of the month -/

theorem firstDayMonth_eq_some {month year first : Int} :
    firstDayMonth month year = some first ↔
      (0 ≤ month ∧ month ≤ 11) ∧
        first = Date.dayNumber year (month + 1).toNat 1 % 7 + 1 := by
  unfold firstDayMonth Date.ofText
  have hdays : 1 ≤ Date.daysInMonth year (month + 1) := by
    unfold Date.daysInMonth
    split_ifs <;> omega
  by_cases hmonth : 0 ≤ month ∧ month ≤ 11
  · rw [if_pos (by omega), and_iff_right hmonth]
    simp only [Option.bind_eq_bind, Option.bind_some]
    have hweekday : Date.weekday (Date.ofMasks (Date.dayNumber year (month + 1).toNat 1) 0)
        = (Date.dayNumber year (month + 1).toNat 1 + 1) % 7 + 1 := by
      rw [Date.weekday, Date.day_ofMasks (le_refl 0) (by decide)]
    rw [hweekday]
    generalize Date.dayNumber year (month + 1).toNat 1 = n
    split_ifs with hsunday
    · rw [Option.some.injEq]
      omega
    · rw [Option.some.injEq]
      omega
  · rw [if_neg (by omega)]
    simp [hmonth]

/-- Every month of every year can be shown. -/
theorem exists_firstDayMonth {month : Int} (h0 : 0 ≤ month) (h11 : month ≤ 11) (year : Int) :
    ∃ first, firstDayMonth month year = some first :=
  ⟨_, firstDayMonth_eq_some.mpr ⟨⟨h0, h11⟩, rfl⟩⟩

theorem showsMonth_of_viewDidLoad {now monthFinish month year : Int} {service : Service}
    {master : Master} {vc : CelendarVC}
    (h : viewDidLoad now monthFinish month year service master = some vc) : vc.ShowsMonth := by
  simp only [viewDidLoad, Option.bind_eq_bind] at h
  obtain ⟨currentMonth, -, h⟩ := Option.bind_eq_some_iff.mp h
  obtain ⟨first, hfirst, h⟩ := Option.bind_eq_some_iff.mp h
  obtain ⟨slots, -, h⟩ := Option.bind_eq_some_iff.mp h
  rw [← Option.some.inj h, ShowsMonth]
  obtain ⟨next, back, hcheck⟩ := checkMonth_frame monthFinish
    { service, master, month, year, currentMonth, firstWeeakDayMonth := first,
      nextMonthButton := true, backMonthButton := true, dateDate := now,
      arrayDateSetviceEntry := slots, cellDateDateTime := none, arrayTimesBlock := [],
      tableViewTimeHidden := true, activeIndTimeHidden := true }
  rw [hcheck]
  exact hfirst

theorem showsMonth_of_showMonth {monthFinish month year : Int} {vc vc' : CelendarVC}
    (h : showMonth monthFinish month year vc = some vc') : vc'.ShowsMonth := by
  simp only [showMonth, Option.bind_eq_bind] at h
  obtain ⟨first, hfirst, h⟩ := Option.bind_eq_some_iff.mp h
  obtain ⟨currentMonth, -, h⟩ := Option.bind_eq_some_iff.mp h
  rw [← Option.some.inj h, ShowsMonth]
  obtain ⟨next, back, hcheck⟩ := checkMonth_frame monthFinish
    { vc with month, year, firstWeeakDayMonth := first, currentMonth }
  rw [hcheck]
  exact hfirst

theorem showsMonth_of_monthChange {monthFinish : Int} {vc vc' : CelendarVC}
    (h : actionNextMonth monthFinish vc = some vc' ∨ actionBackMonth monthFinish vc = some vc') :
    vc'.ShowsMonth := by
  unfold actionNextMonth actionBackMonth at h
  rcases h with h | h <;> split_ifs at h <;> exact showsMonth_of_showMonth h

/-! ## The length of the month -/

/-- The table is right for every month but the February of a leap year. -/
theorem daysInMonths_eq {month : Int} (h0 : 0 ≤ month) (h11 : month ≤ 11) (year : Int) :
    ∃ n, arrayAt daysInMonths month = some n ∧ 28 ≤ n ∧
      n ≤ Date.daysInMonth year (month + 1) ∧
      (n = Date.daysInMonth year (month + 1) ↔ ¬ (Date.isLeap year = true ∧ month = 1)) := by
  interval_cases month <;> cases hleap : Date.isLeap year <;>
    simp [arrayAt, daysInMonths, Date.daysInMonth, hleap]

/-! ## The cells -/

/-- Of the items the first ones are hidden, and the others are numbered from 1. -/
theorem filter_range_le (a n : Nat) :
    (List.range (a + n)).filter (fun i => decide (a ≤ i)) = (List.range n).map (a + ·) := by
  rw [List.range_add, List.filter_append]
  have hfront : (List.range a).filter (fun i => decide (a ≤ i)) = [] := by
    apply List.filter_eq_nil_iff.mpr
    intro i hi
    have hlt := List.mem_range.mp hi
    simp only [decide_eq_true_eq, not_le]
    exact hlt
  have hrest : ((List.range n).map (a + ·)).filter (fun i => decide (a ≤ i))
      = (List.range n).map (a + ·) := by
    apply List.filter_eq_self.mpr
    intro i hi
    obtain ⟨j, -, rfl⟩ := List.mem_map.mp hi
    simp
  rw [hfront, hrest, List.nil_append]

theorem isHidden_dateCell (now : Int) (vc : CelendarVC) (row : Nat) :
    (vc.dateCell now row).isHidden = decide ((row : Int) < vc.firstWeeakDayMonth - 1) := by
  unfold dateCell
  split_ifs with hblank
  · exact (decide_eq_true hblank).symm
  · rw [decide_eq_false hblank]
    cases Date.ofText vc.year (vc.month + 1) (vc.dayForCell row) 72000 with
    | none => rfl
    | some cellDate => by_cases hpast : cellDate < now <;> simp [hpast]

theorem date_dateCell (now : Int) (vc : CelendarVC) (row : Nat) :
    (vc.dateCell now row).date
      = if (row : Int) < vc.firstWeeakDayMonth - 1 then none else some (vc.dayForCell row) := by
  unfold dateCell
  split_ifs with hblank
  · rfl
  · cases Date.ofText vc.year (vc.month + 1) (vc.dayForCell row) 72000 with
    | none => rfl
    | some cellDate => by_cases hpast : cellDate < now <;> simp [hpast]

/-- The days that are shown, for any number of days of the month. -/
theorem shown_days (now : Int) {vc : CelendarVC} (hfirst : 1 ≤ vc.firstWeeakDayMonth) {n : Int}
    (hn : arrayAt daysInMonths vc.month = some n) (hpos : 0 ≤ n) :
    ∃ cells, vc.grid now = some cells ∧
      (cells.filter (fun cell => !cell.isHidden)).map (·.date)
        = (List.range n.toNat).map (fun i : Nat => some (i + 1 : Int)) := by
  refine ⟨(List.range (n + vc.firstWeeakDayMonth - 1).toNat).map (vc.dateCell now),
    by rw [grid, numberOfItemsInSection, hn]; rfl, ?_⟩
  obtain ⟨a, ha⟩ : ∃ a : Nat, vc.firstWeeakDayMonth = a + 1 :=
    ⟨(vc.firstWeeakDayMonth - 1).toNat, by omega⟩
  have hcount : (n + vc.firstWeeakDayMonth - 1).toNat = a + n.toNat := by omega
  have hhidden : (fun cell : DateCell => !cell.isHidden) ∘ vc.dateCell now
      = fun i => decide (a ≤ i) := by
    funext i
    rw [Function.comp_apply, isHidden_dateCell, ← decide_not, ha]
    congr 1
    rw [eq_iff_iff]
    omega
  rw [hcount, List.filter_map, hhidden, filter_range_le, List.map_map, List.map_map]
  apply List.map_congr_left
  intro i _
  rw [Function.comp_apply, Function.comp_apply, date_dateCell, if_neg (by omega), dayForCell, ha]
  congr 1
  push_cast
  ring

/-- A cell's day is a date of the month, in the column of its weekday. -/
theorem column_of_shows (now : Int) {vc : CelendarVC} (h : vc.ShowsMonth) {row : Nat}
    {d count : Int} (hcount : vc.numberOfItemsInSection = some count) (hrow : row < count)
    (hd : (vc.dateCell now row).date = some d) :
    ∃ date, Date.ofText vc.year (vc.month + 1) d 0 = some date ∧
      (row : Int) % 7 = (Date.weekday date + 5) % 7 ∧
      (vc.didSelectItemAt row).1.dateDate = date := by
  obtain ⟨⟨h0, h11⟩, hfirst⟩ := firstDayMonth_eq_some.mp h
  obtain ⟨n, hn, -, hle, -⟩ := daysInMonths_eq h0 h11 vc.year
  rw [numberOfItemsInSection, hn, Option.map_some, Option.some.injEq] at hcount
  rw [date_dateCell] at hd
  split_ifs at hd with hblank
  have hday : vc.dayForCell row = d := Option.some.inj hd
  have hrange : 1 ≤ d ∧ d ≤ Date.daysInMonth vc.year (vc.month + 1) := by
    rw [← hday, dayForCell]
    omega
  have htext : Date.ofText vc.year (vc.month + 1) d 0
      = some (Date.ofMasks (Date.dayNumber vc.year (vc.month + 1).toNat d) 0) := by
    rw [Date.ofText, if_pos (by omega)]
  refine ⟨_, htext, ?_, ?_⟩
  · rw [Date.weekday, Date.day_ofMasks (le_refl 0) (by decide)]
    have hnumber : Date.dayNumber vc.year (vc.month + 1).toNat d
        = Date.dayNumber vc.year (vc.month + 1).toNat 1 + (d - 1) := by
      simp only [Date.dayNumber]
      ring
    rw [hnumber]
    unfold dayForCell at hday
    -- the first of the month is in the column of its weekday, and so are the days after it
    omega
  · have hdate : vc.dateOfCell row
        = some (Date.ofMasks (Date.dayNumber vc.year (vc.month + 1).toNat d) 0) := by
      rw [dateOfCell, hday, htext]
    rw [didSelectItemAt_of_some hdate]

end CelendarVC

/-! ## Every month -/

/-- **The grid of a month** is right exactly if the month is not the February of a leap year. -/
theorem monthGrid_iff (now : Int) (vc : CelendarVC) (h : vc.ShowsMonth) :
    vc.MonthGrid now ↔ ¬ (Date.isLeap vc.year = true ∧ vc.month = 1) := by
  obtain ⟨⟨h0, h11⟩, hfirst⟩ := CelendarVC.firstDayMonth_eq_some.mp h
  obtain ⟨n, hn, hpos, hle, hiff⟩ := CelendarVC.daysInMonths_eq h0 h11 vc.year
  obtain ⟨cells, hcells, hshown⟩ := CelendarVC.shown_days now (by omega) hn (by omega)
  rw [← hiff]
  constructor
  · rintro ⟨⟨cells', hcells', hdays⟩, -⟩
    obtain rfl := Option.some.inj (hcells.symm.trans hcells')
    -- the lists of days have the same length
    have hlength := congrArg List.length (hshown.symm.trans hdays)
    rw [List.length_map, List.length_map, List.length_range, List.length_range] at hlength
    omega
  · intro heq
    constructor
    · exact ⟨cells, hcells, by rw [hshown, heq]⟩
    · intro row d count hcount hrow hd
      exact CelendarVC.column_of_shows now h hcount hrow hd

/-- March 2020. -/
theorem monthGrid_march : ∃ vc,
    CelendarVC.viewDidLoad february2020 2 2 2020 hourService {} = some vc ∧
      vc.MonthGrid february2020 := by
  have hload : (CelendarVC.viewDidLoad february2020 2 2 2020 hourService {}).map
      (fun vc => (vc.month, vc.year)) = some (2, 2020) := by decide
  obtain ⟨vc, hvc, hend⟩ := Option.map_eq_some_iff.mp hload
  obtain ⟨hmonth, hyear⟩ := Prod.mk.inj hend
  refine ⟨vc, hvc, (monthGrid_iff _ vc (CelendarVC.showsMonth_of_viewDidLoad hvc)).mpr ?_⟩
  rintro ⟨-, hfebruary⟩
  rw [hmonth] at hfebruary
  exact absurd hfebruary (by decide)

/-- **The leap day** is missing: February 2020 has 28 cells. -/
theorem not_monthGrid :
    ¬ ∀ (now : Int) (vc : CelendarVC), vc.ShowsMonth → vc.MonthGrid now := by
  intro hall
  have hload : (CelendarVC.viewDidLoad february2020 2 1 2020 hourService {}).map
      (fun vc => (vc.month, vc.year, (vc.grid february2020).map
        (fun cells => (cells.filter (fun cell => !cell.isHidden)).length)))
      = some (1, 2020, some 28) := by decide
  obtain ⟨vc, hvc, hend⟩ := Option.map_eq_some_iff.mp hload
  simp only [Prod.mk.injEq] at hend
  obtain ⟨hmonth, hyear, hgrid⟩ := hend
  obtain ⟨⟨cells, hcells, hdays⟩, -⟩ :=
    hall february2020 vc (CelendarVC.showsMonth_of_viewDidLoad hvc)
  rw [hcells, Option.map_some, Option.some.injEq] at hgrid
  have hlength := congrArg List.length hdays
  rw [List.length_map, List.length_map, List.length_range, hgrid, hmonth, hyear] at hlength
  exact absurd hlength (by decide)

/-! ## Leap days -/

/-- The twenty-ninth of February. -/
def LeapDay (date : Int) : Prop :=
  Date.month (Date.day date) = 2 ∧ Date.dayOfMonth (Date.day date) = 29

namespace CelendarVC

theorem daysInMonths_le {year : Int} {m : Nat} (hm : 1 ≤ m ∧ m ≤ 12) {n : Int}
    (hn : arrayAt daysInMonths (m - 1) = some n) :
    n ≤ Date.daysInMonth year m ∧
      ∀ d, d ≤ Date.daysInMonth year m → (d ≤ n ↔ ¬ (m = 2 ∧ d = 29)) := by
  obtain ⟨n', hn', -, hle, hiff⟩ := daysInMonths_eq (by omega : (0 : Int) ≤ m - 1) (by omega) year
  obtain rfl := Option.some.inj (hn.symm.trans hn')
  rw [sub_add_cancel] at hle hiff
  refine ⟨hle, ?_⟩
  intro d hd
  by_cases hfebruary : m = 2
  · subst hfebruary
    have h28 : n = 28 := (Option.some.inj (hn : some 28 = some n)).symm
    have hlength : Date.daysInMonth year ((2 : Nat) : Int) ≤ 29 := by
      unfold Date.daysInMonth
      split_ifs <;> omega
    omega
  · have heq : n = Date.daysInMonth year m := hiff.mpr (by omega)
    omega

/-- The cell of a day that can be tapped is the cell of a day of its month, which is no leap day. -/
theorem not_leapDay_of_cell {now : Int} {vc : CelendarVC} (h : vc.ShowsMonth) {row : Nat}
    {count date : Int} (hcount : vc.numberOfItemsInSection = some count) (hrow : row < count)
    (hcell : vc.cellForItemAt now row = true) (hdate : vc.dateOfCell row = some date) :
    ¬ LeapDay date := by
  obtain ⟨⟨h0, h11⟩, -⟩ := firstDayMonth_eq_some.mp h
  obtain ⟨m, hm⟩ := Int.eq_ofNat_of_zero_le (by omega : 0 ≤ vc.month + 1)
  obtain ⟨n, hn, -⟩ := daysInMonths_eq h0 h11 vc.year
  rw [numberOfItemsInSection, hn, Option.map_some, Option.some.injEq] at hcount
  have hshown : ¬ (row : Int) < vc.firstWeeakDayMonth - 1 := by
    rw [cellForItemAt_eq, isHidden_dateCell, Bool.and_eq_true, Bool.not_eq_true',
      decide_eq_false_iff_not] at hcell
    exact hcell.1
  have hday : vc.dayForCell row ≤ n := by
    unfold dayForCell
    omega
  unfold dateOfCell Date.ofText at hdate
  split_ifs at hdate with hrange
  obtain rfl := Option.some.inj hdate
  obtain ⟨-, -, hpos, hlength⟩ := hrange
  have hm12 : 1 ≤ m ∧ m ≤ 12 := by omega
  rw [hm] at hlength ⊢
  rw [Int.toNat_natCast, LeapDay, Date.day_ofMasks (le_refl 0) (by decide)]
  obtain ⟨-, hmonth, hdayOf⟩ := Date.civil_dayNumber hm12 ⟨hpos, hlength⟩
  rw [hmonth, hdayOf]
  have htable : arrayAt daysInMonths ((m : Int) - 1) = some n := by
    rw [← hm, add_sub_cancel_right]
    exact hn
  exact ((daysInMonths_le hm12 htable).2 _ hlength).mp hday

end CelendarVC

end Flamingo
