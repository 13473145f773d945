import Flamingo.Foundation.DateFormatter

set_option autoImplicit false

/-! # Dates from texts and texts from dates

`WorkTimeAndDate` formats a date with a mask and reads a text of the mask `yyyy-MM-dd HH:mm:ss`. The
screens make such texts of numbers, without zeros in front of them, or of the texts of two dates.
-/

namespace WorkTimeAndDate

open DateFormatter

def dateFromString (dateStr : String) : Option Int := date dateTimeMask dateStr

def dateFromConvert (date : Int) (mask : Mask) : String := string mask date

/-! ## The text of two dates -/

/-- **The day of one date and the time of another** are read from their texts. -/
theorem dateFromString_convert {dateDate : Int} (h : 0 ≤ dateDate) (dateTime : Int) :
    dateFromString (dateFromConvert dateDate dateMask ++ " " ++ dateFromConvert dateTime timeMask)
      = some (Date.ofMasks (Date.day dateDate) (Date.time dateTime)) := by
  have htext : dateFromConvert dateDate dateMask ++ " " ++ dateFromConvert dateTime timeMask
      = String.ofList (NumberTexts.write width (mixed dateDate dateTime) dateTimeMask) := by
    apply String.toList_inj.mp
    rw [write_mixed]
    simp [dateFromConvert, string]
  rw [dateFromString, htext, date_write, ofFields_mixed h]

/-! ## The text of a day in numbers -/

/-- `\(year)-\(month + 1)-day time` -/
def dateStr (year month : Int) (day time : String) : String :=
  toString year ++ "-" ++ toString (month + 1) ++ "-" ++ day ++ " " ++ time

theorem toList_natCast (n : Nat) : (toString (n : Int)).toList = NumberTexts.pad 1 n := by
  rw [NumberTexts.pad_one]
  exact Nat.toList_repr

/-- A negative number begins with a character that is no digit. -/
theorem stops_of_neg {n : Int} (h : n < 0) (rest : List Char) :
    NumberTexts.Stops ((toString n).toList ++ rest) := by
  obtain ⟨m, rfl⟩ := Int.eq_negSucc_of_lt_zero h
  have htext : (toString (Int.negSucc m)).toList = '-' :: (Nat.repr (m + 1)).toList := by
    show ("-" ++ Nat.repr (m + 1)).toList = _
    rw [String.toList_append]
    rfl
  rw [htext]
  rfl

/-- The numbers of a text of digits, as it stands before the time. -/
def numbers (y m d hh mi s : Nat) : Field → Nat
  | .yyyy => y
  | .MM => m
  | .dd => d
  | .HH => hh
  | .mm => mi
  | .ss => s

/-- **A day in numbers** is read as the date of the numbers, or not at all. -/
theorem dateFromString_dateStr {year : Int} (month d : Int) (hh mi s widthD : Nat)
    {day time : String} (hyear : 1 ≤ year) (hday : 0 ≤ d → day.toList = NumberTexts.pad widthD d.toNat)
    (hneg : d < 0 → ∀ rest, NumberTexts.Stops (day.toList ++ rest))
    (htime : time.toList = NumberTexts.pad 2 hh ++ ':' :: NumberTexts.pad 2 mi
      ++ ':' :: NumberTexts.pad 2 s)
    (hrange : hh < 24 ∧ mi < 60 ∧ s < 60) :
    dateFromString (dateStr year month day time)
      = Date.ofText year (month + 1) d (hh * 3600 + mi * 60 + s) := by
  obtain ⟨y, rfl⟩ := Int.eq_ofNat_of_zero_le (by omega : 0 ≤ year)
  have htext : (dateStr y month day time).toList = NumberTexts.pad 1 y
      ++ '-' :: ((toString (month + 1)).toList ++ '-' :: (day.toList ++ ' ' :: time.toList)) := by
    simp [dateStr, ← toList_natCast]
  by_cases hmonth : month + 1 < 0
  · -- the text of the month does not begin with a digit
    have hnone : Date.ofText y (month + 1) d (hh * 3600 + mi * 60 + s) = none :=
      if_neg (fun hand => by omega)
    have hread := NumberTexts.read_eq_none (fun _ => 1) (numbers y 0 0 0 0 0)
      [.field .yyyy, .literal '-'] ⟨rfl, trivial⟩ Field.MM (dateTimeMask.drop 3)
      (stops_of_neg hmonth ('-' :: (day.toList ++ ' ' :: time.toList)))
    have hwrite : (dateStr y month day time).toList = NumberTexts.write (fun _ => 1)
        (numbers y 0 0 0 0 0) [.field .yyyy, .literal '-']
          ++ ((toString (month + 1)).toList ++ '-' :: (day.toList ++ ' ' :: time.toList)) := by
      rw [htext]
      simp [NumberTexts.write, numbers]
    rw [hnone, dateFromString, date, hwrite]
    exact congrArg (Option.bind · _) hread
  · obtain ⟨m, hm⟩ := Int.eq_ofNat_of_zero_le (by omega : 0 ≤ month + 1)
    rw [hm, toList_natCast] at htext
    rw [hm]
    by_cases hd : d < 0
    · -- the text of the day does not begin with a digit
      have hnone : Date.ofText y m d (hh * 3600 + mi * 60 + s) = none :=
        if_neg (fun hand => by omega)
      have hread := NumberTexts.read_eq_none (fun _ => 1) (numbers y m 0 0 0 0)
        [.field .yyyy, .literal '-', .field .MM, .literal '-']
        ⟨rfl, rfl, trivial⟩ Field.dd (dateTimeMask.drop 5) (hneg hd (' ' :: time.toList))
      have hwrite : (dateStr y month day time).toList = NumberTexts.write (fun _ => 1)
          (numbers y m 0 0 0 0) [.field .yyyy, .literal '-', .field .MM, .literal '-']
            ++ (day.toList ++ ' ' :: time.toList) := by
        rw [htext]
        simp [NumberTexts.write, numbers]
      rw [hnone, dateFromString, date, hwrite]
      exact congrArg (Option.bind · _) hread
    · have hwrite : dateStr y month day time = String.ofList (NumberTexts.write
          (numbers 1 1 widthD 2 2 2) (numbers y m d.toNat hh mi s) dateTimeMask) := by
        apply String.toList_inj.mp
        rw [htext, hday (by omega), htime]
        simp [dateTimeMask, dateMask, timeMask, NumberTexts.write, numbers]
      rw [dateFromString, hwrite, date_write, ofFields, if_pos]
      · simp only [numbers]
        rw [Int.toNat_of_nonneg (by omega)]
      · simp only [numbers]
        omega

end WorkTimeAndDate
