import Flamingo.PresentService.CalendarRuns

set_option autoImplicit false

/-! # The row that is tapped is the date-time that is booked

A row of the time table is rendered for the day that is selected at that moment, while a tap on
it computes the date-time of the day that is selected when it is tapped. The two agree as long
as the table is hidden whenever the selected day changes. The deselection callback sees to that,
but a month change clears the selection without the callback: the rows of the old day stay
visible, and after a tap on a day of the new month they book another day than they show.
-/

namespace Flamingo

namespace CalendarState

/-- What the unwind hands over on a tap is the day and the minute the tapped row shows, and the
date-time that was tested when the row was rendered. -/
def TapMatches (s : CalendarState) : Prop :=
  ∀ row source, s.tapTime row = some source → ∀ appointment : MakeAppointmentVC,
    ∃ r minute day, s.rows row = some r ∧
      r.cell.textLabel = some minute ∧ r.cell.detailTextLabel = some day ∧
      r.tested = Date.ofMasks day (60 * minute) ∧ ¬ r.tested < r.now ∧ r.tested ∉ r.blocked ∧
      (appointment.unwindToMakeAppointmentVC source).cellDateDateTime = some r.tested ∧
      (appointment.unwindToMakeAppointmentVC source).dateEntry = r.tested

/-- No day is tapped while the time table is visible and no day is selected, other than the day
the table is for. Only a month change leads to such a state. -/
def HidesStaleRows (s : CalendarState) : CalendarEvent → Prop
  | .tapDay row _ => s.selectedItem = none → s.vc.tableViewTimeHidden = true ∨
      ∀ d, s.vc.dateOfCell row = some d → d = s.vc.dateDate
  | _ => True

instance (s : CalendarState) (e : CalendarEvent) : Decidable (HidesStaleRows s e) :=
  match e with
  | .tapDay row _ => inferInstanceAs (Decidable (s.selectedItem = none →
      s.vc.tableViewTimeHidden = true ∨ ∀ d ∈ s.vc.dateOfCell row, d = s.vc.dateDate))
  | .write _ | .nextMonth _ | .backMonth _ | .response _ _ | .responseError _ | .render _ _ =>
      inferInstanceAs (Decidable True)

/-- A rendered row that can be tapped passed its test and shows what was tested. -/
def RowTested (r : TimeRow) : Prop :=
  r.cell.isUserInteractionEnabled = true → ¬ r.tested < r.now ∧ r.tested ∉ r.blocked ∧
    ∃ minute day, r.cell.textLabel = some minute ∧ r.cell.detailTextLabel = some day ∧
      r.tested = Date.ofMasks day (60 * minute)

structure RowInv (s : CalendarState) : Prop where
  minutes : ∀ d ∈ s.vc.arrayDateSetviceEntry, Date.time d % 60 = 0
  tested : ∀ row r, s.rows row = some r → RowTested r
  selected : ∀ row, s.selectedItem = some row → ∀ d, s.vc.dateOfCell row = some d →
    d = s.vc.dateDate
  shown : s.vc.tableViewTimeHidden = false → ∀ row r, s.rows row = some r →
    s.vc.rowDate row = some r.tested

theorem rowInv_opened {now monthFinish month year : Int} {service : Service} {master : Master}
    {vc : CelendarVC} (content : List Document)
    (h : CelendarVC.viewDidLoad now monthFinish month year service master = some vc) :
    RowInv (opened vc content) := by
  obtain ⟨-, -, -, -, hslots⟩ := CelendarVC.viewDidLoad_spec h
  refine ⟨?_, ?_, ?_, ?_⟩
  · intro d hd
    exact (time_of_mem_createDataEntry hslots d hd).2.2
  · intro row r hr
    simp [opened] at hr
  · intro row hsel
    simp [opened] at hsel
  · intro _ row r hr
    simp [opened] at hr

/-- A newly selected cell is the date the controller takes over. -/
theorem dateDate_didSelectItemAt (vc : CelendarVC) (row : Nat) (d : Int)
    (h : (vc.didSelectItemAt row).1.dateOfCell row = some d) :
    d = (vc.didSelectItemAt row).1.dateDate := by
  cases hdate : vc.dateOfCell row with
  | none =>
      rw [CelendarVC.didSelectItemAt_of_none hdate] at h
      rw [hdate] at h
      cases h
  | some d' =>
      rw [CelendarVC.didSelectItemAt_of_some hdate] at h ⊢
      have hsame : vc.dateOfCell row = some d := h
      rw [hdate, Option.some.injEq] at hsame
      exact hsame.symm

/-- Selecting a day again leaves the controller as it is, up to the activity indicator. -/
theorem didSelectItemAt_same {vc : CelendarVC} {row : Nat}
    (h : ∀ d, vc.dateOfCell row = some d → d = vc.dateDate) :
    ∃ hidden, (vc.didSelectItemAt row).1 = { vc with activeIndTimeHidden := hidden } := by
  cases hdate : vc.dateOfCell row with
  | none => exact ⟨vc.activeIndTimeHidden, by rw [CelendarVC.didSelectItemAt_of_none hdate]⟩
  | some d =>
      refine ⟨false, ?_⟩
      rw [CelendarVC.didSelectItemAt_of_some hdate, h d hdate]

theorem didSelectItemAt_frame (vc : CelendarVC) (row : Nat) :
    ∃ d hidden, (vc.didSelectItemAt row).1
      = { vc with dateDate := d, activeIndTimeHidden := hidden } := by
  cases hdate : vc.dateOfCell row with
  | none =>
      exact ⟨vc.dateDate, vc.activeIndTimeHidden, by rw [CelendarVC.didSelectItemAt_of_none hdate]⟩
  | some d => exact ⟨d, false, by rw [CelendarVC.didSelectItemAt_of_some hdate]⟩

theorem rowInv_tapDay {s s' : CalendarState} {row : Nat} {now : Int} (hi : RowInv s)
    (hc : HidesStaleRows s (.tapDay row now)) (h : s.tapDay row now = some s') : RowInv s' := by
  rcases tapDay_cases h with ⟨hsel, pending, rfl⟩ | ⟨hsel, vc, pending, hvc, rfl⟩
  · -- the selected cell once more: `dateDate` stays
    obtain ⟨hidden, hsame⟩ := didSelectItemAt_same (hi.selected row hsel)
    rw [hsame]
    exact ⟨hi.minutes, hi.tested, hi.selected, hi.shown⟩
  · have hslots : vc.arrayDateSetviceEntry = s.vc.arrayDateSetviceEntry := by
      rw [hvc]
      split_ifs <;> rfl
    have hselected : ∀ row', some row = some row' →
        ∀ d, (vc.didSelectItemAt row).1.dateOfCell row' = some d →
          d = (vc.didSelectItemAt row).1.dateDate := by
      intro row' hrow d hd
      obtain rfl := Option.some.inj hrow
      exact dateDate_didSelectItemAt vc row d hd
    cases hprev : s.selectedItem with
    | some selected =>
        -- another cell was selected: the callback hides the table
        rw [hprev, Option.isSome_some, if_pos rfl] at hvc
        obtain ⟨d, hidden, hframe⟩ := didSelectItemAt_frame vc row
        refine ⟨?_, hi.tested, hselected, ?_⟩
        · rw [hframe]
          exact hslots ▸ hi.minutes
        · intro hvisible
          rw [hframe, hvc] at hvisible
          simp [CelendarVC.didDeselectItemAt] at hvisible
    | none =>
        rw [hprev] at hvc
        obtain rfl : vc = s.vc := by simpa using hvc
        rcases hc hprev with hhidden | hsame
        · -- the table is hidden, and stays so until a response
          obtain ⟨d, hidden, hframe⟩ := didSelectItemAt_frame s.vc row
          refine ⟨?_, hi.tested, hselected, ?_⟩
          · rw [hframe]
            exact hi.minutes
          · intro hvisible
            rw [hframe] at hvisible
            simp [hhidden] at hvisible
        · -- the day the visible table is for
          obtain ⟨hidden, hframe⟩ := didSelectItemAt_same hsame
          refine ⟨?_, hi.tested, hselected, ?_⟩
          · rw [hframe]
            exact hi.minutes
          · rw [hframe]
            exact hi.shown

theorem rowInv_response {s s' : CalendarState} {i : Nat} {documents : List Document}
    (hi : RowInv s) (h : s.response i documents = some s') : RowInv s' := by
  obtain ⟨p, -, ⟨-, rfl⟩ | ⟨-, rfl⟩⟩ := response_cases h
  · -- the table is reloaded: no row of an earlier day is left
    refine ⟨hi.minutes, ?_, hi.selected, ?_⟩
    · intro row r hr
      simp at hr
    · intro _ row r hr
      simp at hr
  · exact ⟨hi.minutes, hi.tested, hi.selected, hi.shown⟩

theorem rowInv_render {s s' : CalendarState} {row : Nat} {now : Int} (hi : RowInv s)
    (h : s.render row now = some s') : RowInv s' := by
  obtain ⟨cell, t, hdate, htest, hlabels, rfl⟩ := render_cases h
  refine ⟨hi.minutes, ?_, hi.selected, ?_⟩
  · intro row' r hr
    rcases rows_of_render hr with ⟨rfl, rfl⟩ | hr
    · intro henabled
      obtain ⟨dateTime, hentry, htext, hdetail⟩ := hlabels henabled
      obtain ⟨hpast, hblocked⟩ := htest henabled
      refine ⟨hpast, hblocked, Date.hourMinute dateTime, Date.day s.vc.dateDate, htext, hdetail, ?_⟩
      have hminutes := hi.minutes dateTime (List.mem_of_getElem? hentry)
      rw [CelendarVC.rowDate, hentry, Option.map_some, Option.some.injEq] at hdate
      have htime : 60 * Date.hourMinute dateTime = Date.time dateTime := by
        unfold Date.hourMinute
        omega
      rw [htime, hdate]
    · exact hi.tested row' r hr
  · intro hvisible row' r hr
    rcases rows_of_render hr with ⟨rfl, rfl⟩ | hr
    · exact hdate
    · exact hi.shown hvisible row' r hr

/-- **The invariant of the time table**: it is kept by every step that does not select a day under
a visible table. -/
theorem rowInv_step {s s' : CalendarState} {e : CalendarEvent} (hi : RowInv s)
    (hc : HidesStaleRows s e) (h : s.step e = some s') : RowInv s' := by
  have hmonth : ∀ monthFinish, s.step (.nextMonth monthFinish) = some s' ∨
      s.step (.backMonth monthFinish) = some s' → RowInv s' := by
    intro monthFinish hstep
    obtain ⟨month, year, currentMonth, firstWeeakDayMonth, next, back, rfl⟩ :=
      changeMonth_cases hstep
    exact ⟨hi.minutes, hi.tested, fun row hsel => by simp at hsel, hi.shown⟩
  cases e with
  | write content =>
      obtain rfl := Option.some.inj h
      exact ⟨hi.minutes, hi.tested, hi.selected, hi.shown⟩
  | tapDay row now => exact rowInv_tapDay hi hc h
  | nextMonth monthFinish => exact hmonth monthFinish (Or.inl h)
  | backMonth monthFinish => exact hmonth monthFinish (Or.inr h)
  | response i documents => exact rowInv_response hi h
  | responseError i =>
      obtain rfl := Option.some.inj h
      exact ⟨hi.minutes, hi.tested, hi.selected, hi.shown⟩
  | render row now => exact rowInv_render hi h

theorem RowInv.tapMatches {s : CalendarState} (hi : RowInv s) : TapMatches s := by
  intro row source htap appointment
  unfold tapTime at htap
  split_ifs at htap with hhidden
  cases hr : s.rows row with
  | none => simp [hr] at htap
  | some r =>
      simp only [hr] at htap
      split_ifs at htap with henabled
      obtain ⟨t, hdate, rfl⟩ := CelendarVC.didSelectRowAt_spec htap
      obtain ⟨hpast, hblocked, minute, day, htext, hdetail, heq⟩ := hi.tested row r hr henabled
      have hshown := hi.shown (by simpa using hhidden) row r hr
      rw [hdate, Option.some.injEq] at hshown
      subst hshown
      refine ⟨r, minute, day, rfl, htext, hdetail, heq, hpast, hblocked, ?_, ?_⟩ <;>
        rw [MakeAppointmentVC.unwind_of_some rfl]

end CalendarState

/-! ## The runs of the screen -/

/-- **What is tapped is what is booked**, in every run in which no day is tapped under the visible
rows of another day. -/
theorem tapMatches_of_reach (s : CalendarState)
    (h : calendar.Reach CalendarState.HidesStaleRows s) : s.TapMatches := by
  refine CalendarState.RowInv.tapMatches (h.invariant CalendarState.RowInv ?_ ?_)
  · rintro s ⟨now, monthFinish, month, year, service, master, vc, content, hload, rfl⟩
    exact CalendarState.rowInv_opened content hload
  · intro s e s' hi hc hs
    exact CalendarState.rowInv_step hi hc hs

/-- The fifth of February is tapped and answered, and its first row is rendered. -/
def answeredEvents : List CalendarEvent :=
  [.tapDay 9 february2020, .response 0 [], .render 0 february2020]

theorem tapMatches_after_response : ∃ s, calendar.Reach CalendarState.HidesStaleRows s ∧
    (s.tapTime 0).isSome = true ∧ s.TapMatches := by
  have htap : ((calendarRun CalendarState.HidesStaleRows february2020 2 1 2020 hourService {} []
      answeredEvents).bind (fun s => s.tapTime 0)).isSome = true := by decide
  obtain ⟨source, hsource⟩ := Option.isSome_iff_exists.mp htap
  obtain ⟨s, hrun, hs⟩ := Option.bind_eq_some_iff.mp hsource
  have hreach := reach_of_calendarRun hrun
  exact ⟨s, hreach, by rw [hs]; rfl, tapMatches_of_reach s hreach⟩

/-- The month is changed then, and the tenth of March is tapped. -/
def staleRowEvents : List CalendarEvent :=
  answeredEvents ++ [.nextMonth 2, .tapDay 15 february2020]

/-- **The stale row.** The first row still shows the fifth of February, and a tap on it books the
tenth of March. -/
theorem not_tapMatches : ¬ ∀ s, calendar.Reachable s → s.TapMatches := by
  intro hall
  have hshown : (calendarRun (fun _ _ => True) february2020 2 1 2020 hourService {} []
      staleRowEvents).bind (fun s => (s.rows 0).map (·.tested))
        = some (Date.ofMasks (Date.dayNumber 2020 2 5) 36000) := by decide
  have hbooked : (calendarRun (fun _ _ => True) february2020 2 1 2020 hourService {} []
      staleRowEvents).bind (fun s => (s.tapTime 0).bind (·.cellDateDateTime))
        = some (Date.ofMasks (Date.dayNumber 2020 3 10) 36000) := by decide
  obtain ⟨s, hrun, hrow⟩ := Option.bind_eq_some_iff.mp hshown
  rw [hrun, Option.bind_some] at hbooked
  obtain ⟨source, htap, hsource⟩ := Option.bind_eq_some_iff.mp hbooked
  obtain ⟨r, hr, htested⟩ := Option.map_eq_some_iff.mp hrow
  obtain ⟨r', minute, day, hr', -, -, -, -, -, -, hdate⟩ :=
    hall s (reach_of_calendarRun hrun) 0 source htap
      (MakeAppointmentVC.viewDidLoad february2020 hourService [] "" "")
  rw [hr, Option.some.injEq] at hr'
  rw [MakeAppointmentVC.unwind_of_some hsource, ← hr', htested] at hdate
  exact absurd hdate (by decide)

end Flamingo
