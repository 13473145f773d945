import Flamingo.Lib.NumberTexts
import Flamingo.Foundation.Gregorian

set_option autoImplicit false

/-! # DateFormatter

The masks of the program that have only numbers: a field is written with as many digits as the mask
has letters, and read with any number of digits. A text is a date if its numbers are in their
ranges, the day within its month.
-/

namespace DateFormatter

inductive Field
  | yyyy
  | MM
  | dd
  | HH
  | mm
  | ss
  deriving DecidableEq, Repr

abbrev Mask := List (NumberTexts.Item Field)

def width : Field → Nat
  | .yyyy => 4
  | _ => 2

/-- The number that a date has for a field. -/
def component (d : Int) : Field → Nat
  | .yyyy => (Date.yearOf (Date.day d)).toNat
  | .MM => Date.month (Date.day d)
  | .dd => (Date.dayOfMonth (Date.day d)).toNat
  | .HH => (Date.time d / 3600).toNat
  | .mm => (Date.time d / 60 % 60).toNat
  | .ss => (Date.time d % 60).toNat

/-- `string(from:)` -/
def string (dateFormat : Mask) (d : Int) : String :=
  String.ofList (NumberTexts.write width (component d) dateFormat)

/-- The date of six numbers. -/
def ofFields (value : Field → Nat) : Option Int :=
  if 1 ≤ value .yyyy ∧ value .HH < 24 ∧ value .mm < 60 ∧ value .ss < 60 then
    Date.ofText (value .yyyy) (value .MM) (value .dd)
      (value .HH * 3600 + value .mm * 60 + value .ss)
  else none

/-- `date(from:)`, for a mask with all of the fields. -/
def date (dateFormat : Mask) (text : String) : Option Int :=
  (NumberTexts.read dateFormat text.toList).bind (fun values =>
    ofFields (fun f => (values.lookup f).getD 0))

/-! ## The masks -/

/-- `yyyy-MM-dd` -/
def dateMask : Mask := [.field .yyyy, .literal '-', .field .MM, .literal '-', .field .dd]

/-- `HH:mm:ss` -/
def timeMask : Mask := [.field .HH, .literal ':', .field .mm, .literal ':', .field .ss]

/-- `HH:mm` -/
def minuteMask : Mask := [.field .HH, .literal ':', .field .mm]

/-- `yyyy-MM-dd HH:mm:ss` -/
def dateTimeMask : Mask := dateMask ++ .literal ' ' :: timeMask

theorem separable_dateTimeMask : NumberTexts.Separable dateTimeMask :=
  ⟨rfl, rfl, rfl, rfl, rfl, trivial⟩

/-- **A text of six numbers** is the date of the numbers, with any number of zeros in it. -/
theorem date_write (widths value : Field → Nat) :
    date dateTimeMask (String.ofList (NumberTexts.write widths value dateTimeMask))
      = ofFields value := by
  rw [date, String.toList_ofList, NumberTexts.read_write _ _ separable_dateTimeMask,
    Option.bind_some]
  congr 1
  funext f
  cases f <;> rfl

/-! ## The numbers of a date -/

theorem time_bounds (d : Int) : 0 ≤ Date.time d ∧ Date.time d < 86400 := by
  unfold Date.time Date.secondsOfDay
  omega

/-- The day of one date with the time of another one. -/
def mixed (dateDate dateTime : Int) : Field → Nat
  | .yyyy => component dateDate .yyyy
  | .MM => component dateDate .MM
  | .dd => component dateDate .dd
  | .HH => component dateTime .HH
  | .mm => component dateTime .mm
  | .ss => component dateTime .ss

theorem ofFields_mixed {dateDate : Int} (h : 0 ≤ dateDate) (dateTime : Int) :
    ofFields (mixed dateDate dateTime)
      = some (Date.ofMasks (Date.day dateDate) (Date.time dateTime)) := by
  have hday : 0 ≤ Date.day dateDate := by
    unfold Date.day Date.secondsOfDay
    omega
  have hyear := Date.yearOf_pos hday
  have hmonth := (Date.dayOfMonth_bounds (Date.day dateDate)).1
  obtain ⟨hlow, hhigh⟩ := time_bounds dateTime
  have hrange : 1 ≤ mixed dateDate dateTime .yyyy ∧ mixed dateDate dateTime .HH < 24 ∧
      mixed dateDate dateTime .mm < 60 ∧ mixed dateDate dateTime .ss < 60 := by
    simp only [mixed, component]
    omega
  have htime : (mixed dateDate dateTime .HH : Int) * 3600 + mixed dateDate dateTime .mm * 60
      + mixed dateDate dateTime .ss = Date.time dateTime := by
    simp only [mixed, component]
    omega
  rw [ofFields, if_pos hrange, htime, ← Date.ofText_civil]
  simp only [mixed, component]
  rw [Int.toNat_of_nonneg (by omega), Int.toNat_of_nonneg (by omega)]

theorem write_mixed (dateDate dateTime : Int) :
    NumberTexts.write width (mixed dateDate dateTime) dateTimeMask
      = NumberTexts.write width (component dateDate) dateMask
        ++ ' ' :: NumberTexts.write width (component dateTime) timeMask := by
  simp only [dateTimeMask, dateMask, timeMask, List.cons_append, List.nil_append,
    NumberTexts.write, mixed, List.append_assoc, List.append_nil]

end DateFormatter
