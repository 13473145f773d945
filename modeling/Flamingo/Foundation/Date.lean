import Mathlib.Tactic

set_option autoImplicit false

/-! # Dates, the Gregorian calendar and date masks

A date is a point of the local time line, an `Int` of seconds from the midnight that begins
day `0`, the first of January of the year 1. A text that `DateFormatter` makes
of a date with a mask is represented by what it denotes: the day for `yyyy-MM-dd` (and for
`EEEE, MMMM d`, which shows the same day), the second of the day for `HH:mm:ss`, the minute
of the day for `HH:mm`. The formatter parses back what it formats (`ofMasks_day_time`).
-/

namespace Date

def secondsOfDay : Int := 86400

/-- The day of a date: its `yyyy-MM-dd` text. -/
def day (d : Int) : Int := d / secondsOfDay

/-- The second of the day: the `HH:mm:ss` text. -/
def time (d : Int) : Int := d % secondsOfDay

/-- The minute of the day: the `HH:mm` text. -/
def hourMinute (d : Int) : Int := time d / 60

/-- Midnight of a day. -/
def midnight (n : Int) : Int := n * secondsOfDay

/-- The date that a `yyyy-MM-dd` text and a `HH:mm:ss` text denote together. -/
def ofMasks (n t : Int) : Int := n * secondsOfDay + t

/-- What was formatted with the two masks is parsed back. -/
theorem ofMasks_day_time (d : Int) : ofMasks (day d) (time d) = d := by
  simp only [ofMasks, day, time, secondsOfDay]
  omega

theorem day_ofMasks {n t : Int} (h0 : 0 ≤ t) (h1 : t < secondsOfDay) :
    day (ofMasks n t) = n := by
  simp only [ofMasks, day, secondsOfDay] at *
  omega

theorem time_ofMasks {n t : Int} (h0 : 0 ≤ t) (h1 : t < secondsOfDay) :
    time (ofMasks n t) = t := by
  simp only [ofMasks, time, secondsOfDay] at *
  omega

/-! ## The Gregorian calendar -/

def isLeap (year : Int) : Bool :=
  decide (year % 4 = 0) && (decide (year % 100 ≠ 0) || decide (year % 400 = 0))

/-- The number of days of the months `1` to `12`. -/
def daysInMonth (year : Int) (month : Int) : Int :=
  if month = 2 then (if isLeap year then 29 else 28)
  else if month = 4 ∨ month = 6 ∨ month = 9 ∨ month = 11 then 30
  else 31

/-- The days of a year before the first of the month. -/
def daysBeforeMonth (year : Int) (month : Nat) : Int :=
  ((List.range (month - 1)).map (fun i => daysInMonth year (i + 1))).sum

/-- The days before the first of January of a year. -/
def daysBeforeYear (year : Int) : Int :=
  365 * (year - 1) + (year - 1) / 4 - (year - 1) / 100 + (year - 1) / 400

/-- The number of the day `year-month-day`. -/
def dayNumber (year : Int) (month : Nat) (d : Int) : Int :=
  daysBeforeYear year + daysBeforeMonth year month + (d - 1)

/-- `Calendar.component(.weekday)`: Sunday is `1`, Saturday is `7`; day `0` is a Monday. -/
def weekday (d : Int) : Int := (day d + 1) % 7 + 1

/-- The date that the text `year-month-day` with a time of day denotes; `none` for a text that
is not a date of the calendar. -/
def ofText (year : Int) (month : Int) (d : Int) (t : Int) : Option Int :=
  if 1 ≤ month ∧ month ≤ 12 ∧ 1 ≤ d ∧ d ≤ daysInMonth year month then
    some (ofMasks (dayNumber year month.toNat d) t)
  else none

-- the first of February 2020 was a Saturday
example : (ofText 2020 2 1 0).map weekday = some 7 := by decide

end Date
