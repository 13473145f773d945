import Flamingo.Helpers.SupportAllFunc
import Flamingo.PresentService.CalendarRuns

set_option autoImplicit false

/-! # The calendar computes with texts

`CelendarVC` goes from numbers to a date, and from two dates to a third one, through texts that
`WorkTimeAndDate` reads. `PresentService/CelendarVC.lean` has these steps on the dates themselves.
Here they are as in the source, on texts, and on every screen of the calendar both do the same; so
the unwrapped result of the formatter is always there.
-/

namespace Flamingo

open WorkTimeAndDate DateFormatter

namespace CelendarVC

/-! ## The steps on texts -/

def firstDayMonthText (month year : Int) : Option Int := do
  let datedate ← dateFromString (dateStr year month "01" "00:00:00")
  let firstWeeakDayMonth := Date.weekday datedate
  if firstWeeakDayMonth = 1 then some 7 else some (firstWeeakDayMonth - 1)

def cellForItemAtText (now : Int) (vc : CelendarVC) (row : Nat) : Bool :=
  if vc.firstWeeakDayMonth - 1 > row then false
  else match dateFromString (dateStr vc.year vc.month (toString (vc.dayForCell row)) "20:00:00") with
    | none => true
    | some cellDate => !decide (cellDate < now)

def didSelectItemAtText (vc : CelendarVC) (row : Nat) : CelendarVC × Option Query :=
  match dateFromString (dateStr vc.year vc.month (toString (vc.dayForCell row)) "00:00:00") with
  | none => (vc, none)
  | some dateDateF =>
      ({ vc with dateDate := dateDateF, activeIndTimeHidden := false },
        some (vc.getTimesIsGreaterThan dateDateF))

/-- The text of the selected day and of a time. -/
def cellDateDateTimeText (vc : CelendarVC) (dateTime : Int) : String :=
  dateFromConvert vc.dateDate dateMask ++ " " ++ dateFromConvert dateTime timeMask

/-- The label of a row that shows a time; the other label, whose mask has names, is the day. -/
structure TimeCellText where
  isUserInteractionEnabled : Bool
  textLabel : String
  detailTextLabel : Option Int

/-- The date that is read is unwrapped when it is compared with now. -/
def cellForRowAtText (now : Int) (vc : CelendarVC) (row : Nat) :
    Option (CelendarVC × TimeCellText) := do
  let dateTime ← vc.arrayDateSetviceEntry[row]?
  let time := dateFromConvert dateTime minuteMask
  let vc := { vc with cellDateDateTime := dateFromString (vc.cellDateDateTimeText dateTime) }
  let cellDateDateTime ← vc.cellDateDateTime
  if cellDateDateTime < now then some (vc, ⟨false, "Нет записи", none⟩)
  else if vc.arrayTimesBlock.contains cellDateDateTime then
    some (vc, ⟨false, time, some (Date.day vc.dateDate)⟩)
  else some (vc, ⟨true, time, some (Date.day vc.dateDate)⟩)

def didSelectRowAtText (vc : CelendarVC) (row : Nat) : Option CelendarVC := do
  let dateTime ← vc.arrayDateSetviceEntry[row]?
  some { vc with cellDateDateTime := dateFromString (vc.cellDateDateTimeText dateTime) }

/-! ## They agree with the steps on dates -/

/-- The text of a minute of the day. -/
def minuteText (minute : Int) : String := dateFromConvert (minute * 60) minuteMask

theorem minuteText_hourMinute (d : Int) :
    minuteText (Date.hourMinute d) = dateFromConvert d minuteMask := by
  have htime : Date.time (Date.hourMinute d * 60) = Date.time d / 60 * 60 := by
    obtain ⟨hlow, hhigh⟩ := time_bounds d
    apply Int.emod_eq_of_lt
    · unfold Date.hourMinute
      omega
    · unfold Date.hourMinute Date.secondsOfDay
      omega
  have hhour : component (Date.hourMinute d * 60) .HH = component d .HH := by
    show (Date.time (Date.hourMinute d * 60) / 3600).toNat = (Date.time d / 3600).toNat
    have hdiv : Date.time d / 60 * 60 / 3600 = Date.time d / 3600 := by omega
    rw [htime, hdiv]
  have hminute : component (Date.hourMinute d * 60) .mm = component d .mm := by
    show (Date.time (Date.hourMinute d * 60) / 60 % 60).toNat = (Date.time d / 60 % 60).toNat
    rw [htime, Int.mul_ediv_cancel _ (by decide)]
  rw [minuteText, dateFromConvert, dateFromConvert, string, string, minuteMask]
  simp only [NumberTexts.write, hhour, hminute]

/-- A cell as it is shown. -/
def TimeCell.text (cell : TimeCell) : TimeCellText where
  isUserInteractionEnabled := cell.isUserInteractionEnabled
  textLabel := (cell.textLabel.map minuteText).getD "Нет записи"
  detailTextLabel := cell.detailTextLabel

theorem dateFromString_day {year : Int} (hyear : 1 ≤ year) (month d : Int) (hh : Nat) {time : String}
    (htime : time.toList
      = NumberTexts.pad 2 hh ++ ':' :: NumberTexts.pad 2 0 ++ ':' :: NumberTexts.pad 2 0)
    (hhh : hh < 24) :
    dateFromString (dateStr year month (toString d) time)
      = Date.ofText year (month + 1) d (hh * 3600) := by
  have hday : 0 ≤ d → (toString d).toList = NumberTexts.pad 1 d.toNat := by
    intro hd
    obtain ⟨n, rfl⟩ := Int.eq_ofNat_of_zero_le hd
    exact toList_natCast n
  have hread := dateFromString_dateStr month d hh 0 0 1 hyear hday (fun hd => stops_of_neg hd)
    htime ⟨hhh, by decide, by decide⟩
  simpa using hread

theorem firstDayMonthText_eq {year : Int} (hyear : 1 ≤ year) (month : Int) :
    firstDayMonthText month year = firstDayMonth month year := by
  have htext : dateFromString (dateStr year month "01" "00:00:00")
      = Date.ofText year (month + 1) 1 0 := by
    have hday : ("01" : String).toList = NumberTexts.pad 2 1 := by decide
    have hread := dateFromString_dateStr month 1 0 0 0 2 hyear (fun _ => hday) (fun h => by omega)
      (by decide : "00:00:00".toList = _) (by decide)
    simpa using hread
  rw [firstDayMonthText, firstDayMonth, htext]

theorem cellForItemAtText_eq {vc : CelendarVC} (hyear : 1 ≤ vc.year) (now : Int) (row : Nat) :
    vc.cellForItemAtText now row = vc.cellForItemAt now row := by
  have hread := dateFromString_day hyear vc.month (vc.dayForCell row) 20
    (by decide : "20:00:00".toList = _) (by decide)
  rw [cellForItemAtText, cellForItemAt, hread]
  rfl

theorem didSelectItemAtText_eq {vc : CelendarVC} (hyear : 1 ≤ vc.year) (row : Nat) :
    vc.didSelectItemAtText row = vc.didSelectItemAt row := by
  have hread := dateFromString_day hyear vc.month (vc.dayForCell row) 0
    (by decide : "00:00:00".toList = _) (by decide)
  rw [didSelectItemAtText, didSelectItemAt, dateOfCell, hread]
  rfl

theorem cellForRowAtText_eq {vc : CelendarVC} (hdate : 0 ≤ vc.dateDate) (now : Int) (row : Nat) :
    vc.cellForRowAtText now row
      = (vc.cellForRowAt now row).map (fun r => (r.1, TimeCell.text r.2)) := by
  unfold cellForRowAtText cellForRowAt cellDateDateTimeText
  cases hrow : vc.arrayDateSetviceEntry[row]? with
  | none => rfl
  | some dateTime =>
      simp only [Option.bind_eq_bind, Option.bind_some, dateFromString_convert hdate]
      split_ifs
      · rfl
      · rw [Option.map_some, TimeCell.text, Option.map_some, Option.getD_some,
          minuteText_hourMinute]
      · rw [Option.map_some, TimeCell.text, Option.map_some, Option.getD_some,
          minuteText_hourMinute]

theorem didSelectRowAtText_eq {vc : CelendarVC} (hdate : 0 ≤ vc.dateDate) (row : Nat) :
    vc.didSelectRowAtText row = vc.didSelectRowAt row := by
  unfold didSelectRowAtText didSelectRowAt cellDateDateTimeText
  cases hrow : vc.arrayDateSetviceEntry[row]? with
  | none => rfl
  | some dateTime =>
      simp only [Option.bind_eq_bind, Option.bind_some, dateFromString_convert hdate]

end CelendarVC

/-! ## On every screen of the calendar -/

/-- The calendar, opened on a day from the year 1 on. -/
def datedCalendar : EventMachine CalendarState CalendarEvent where
  init s := calendar.init s ∧ 0 ≤ s.vc.dateDate
  step := calendar.step

namespace CalendarState

theorem dateDate_select {vc : CelendarVC} (hyear : 1 ≤ vc.year) (hdate : 0 ≤ vc.dateDate)
    (row : Nat) : 0 ≤ (vc.didSelectItemAt row).1.dateDate := by
  cases hcell : vc.dateOfCell row with
  | none =>
      rw [CelendarVC.didSelectItemAt_of_none hcell]
      exact hdate
  | some d =>
      rw [CelendarVC.didSelectItemAt_of_some hcell]
      exact Date.nonneg_of_ofText hyear (le_refl 0) hcell

/-- A step selects no day before the year 1 if the displayed year is not before it. -/
theorem dateDate_step {s s' : CalendarState} {e : CalendarEvent} (hyear : 1 ≤ s.vc.year)
    (hdate : 0 ≤ s.vc.dateDate) (h : s.step e = some s') : 0 ≤ s'.vc.dateDate := by
  have hmonth : ∀ monthFinish, s.step (.nextMonth monthFinish) = some s' ∨
      s.step (.backMonth monthFinish) = some s' → 0 ≤ s'.vc.dateDate := by
    intro monthFinish hstep
    obtain ⟨month, year, currentMonth, firstWeeakDayMonth, next, back, rfl⟩ :=
      changeMonth_cases hstep
    exact hdate
  cases e with
  | write content =>
      obtain rfl := Option.some.inj h
      exact hdate
  | tapDay row now =>
      rcases tapDay_cases h with ⟨-, pending, rfl⟩ | ⟨-, vc, pending, hvc, rfl⟩
      · exact dateDate_select hyear hdate row
      · apply dateDate_select
        · rw [hvc]
          split_ifs
          · exact hyear
          · exact hyear
        · rw [hvc]
          split_ifs
          · exact hdate
          · exact hdate
  | nextMonth monthFinish => exact hmonth monthFinish (Or.inl h)
  | backMonth monthFinish => exact hmonth monthFinish (Or.inr h)
  | response i documents =>
      obtain ⟨p, -, ⟨-, rfl⟩ | ⟨-, rfl⟩⟩ := response_cases h
      · exact hdate
      · exact hdate
  | responseError i =>
      obtain rfl := Option.some.inj h
      exact hdate
  | render row now =>
      obtain ⟨cell, t, -, -, -, rfl⟩ := render_cases h
      exact hdate

end CalendarState

/-- The steps on texts are the steps on dates. -/
structure CelendarVC.AgreesOnTexts (vc : CelendarVC) : Prop where
  firstDay : firstDayMonthText vc.month vc.year = firstDayMonth vc.month vc.year
  cells : ∀ now row, vc.cellForItemAtText now row = vc.cellForItemAt now row
  select : ∀ row, vc.didSelectItemAtText row = vc.didSelectItemAt row
  rows : ∀ now row, vc.cellForRowAtText now row
    = (vc.cellForRowAt now row).map (fun r => (r.1, r.2.text))
  tap : ∀ row, vc.didSelectRowAtText row = vc.didSelectRowAt row

/-- **The calendar computes with texts what it would compute with dates.** Open the calendar on any
day from the year 1 on and use it in any way that does not leave these years. Then the weekday of
the first, the cells of the grid, the selected day, the rows of the times and the time that a tap
hands over, all computed through texts, are those that the dates give; and the date that a row
unwraps is there. -/
theorem calendar_of_texts (s : CalendarState)
    (hs : datedCalendar.Reach (fun s _ => 1 ≤ s.vc.year) s) (hyear : 1 ≤ s.vc.year) :
    s.vc.AgreesOnTexts ∧ ∀ dateTime ∈ s.vc.arrayDateSetviceEntry,
      (dateFromString (s.vc.cellDateDateTimeText dateTime)).isSome := by
  have hdate : 0 ≤ s.vc.dateDate := by
    refine hs.invariant (fun s => 0 ≤ s.vc.dateDate) ?_ ?_
    · rintro s ⟨-, hnow⟩
      exact hnow
    · exact fun _ _ _ hi hC hstep => CalendarState.dateDate_step hC hi hstep
  refine ⟨⟨CelendarVC.firstDayMonthText_eq hyear _, CelendarVC.cellForItemAtText_eq hyear,
    CelendarVC.didSelectItemAtText_eq hyear, CelendarVC.cellForRowAtText_eq hdate,
    CelendarVC.didSelectRowAtText_eq hdate⟩, ?_⟩
  intro dateTime _
  rw [CelendarVC.cellDateDateTimeText, dateFromString_convert hdate]
  rfl

/-- The fifth of February 2020 is tapped in the calendar of an hour's service. -/
theorem calendar_of_texts_february : ∃ s : CalendarState, s.vc.dateDate = february2020 + 345600 ∧
    s.vc.AgreesOnTexts ∧ ∀ dateTime ∈ s.vc.arrayDateSetviceEntry,
      (dateFromString (s.vc.cellDateDateTimeText dateTime)).isSome := by
  have hload : ((CelendarVC.viewDidLoad february2020 2 1 2020 hourService {}).bind (fun vc =>
      (datedCalendar.execWhere (fun s _ => 1 ≤ s.vc.year) (CalendarState.opened vc [])
        [.tapDay 9 february2020]).map (fun s => (vc.dateDate, s.vc.dateDate, s.vc.year))))
      = some (february2020, february2020 + 345600, 2020) := by decide
  obtain ⟨vc, hvc, hload⟩ := Option.bind_eq_some_iff.mp hload
  obtain ⟨s, hs, hend⟩ := Option.map_eq_some_iff.mp hload
  simp only [Prod.mk.injEq] at hend
  obtain ⟨hnow, hdate, hyear⟩ := hend
  have h0 : datedCalendar.init (CalendarState.opened vc []) := by
    refine ⟨⟨_, _, _, _, _, _, vc, [], hvc, rfl⟩, ?_⟩
    show 0 ≤ vc.dateDate
    rw [hnow]
    decide
  exact ⟨s, hdate, calendar_of_texts s (EventMachine.reach_of_execWhere _ h0 hs)
    (by rw [hyear]; decide)⟩

end Flamingo
