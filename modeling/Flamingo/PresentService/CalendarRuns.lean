import Flamingo.Lib.Machine
import Flamingo.PresentService.MakeAppointmentVC

set_option autoImplicit false

/-! # Runs of the calendar screen

The screen as an event machine: day taps, month changes, responses to the queries in flight in
any order, rows rendered by reloading and scrolling. UIKit's part of the state is the selected
cell of the day grid and the rendered rows of the time table; Firestore's part is the content of
`service_enrty`, which anybody may change at any moment, and the queries in flight.

What hides the time table is the deselection callback alone, and what shows it is any response.
The lemmas of this file say once what each step can do; `PresentService/TappedRow.lean` and
`PresentService/FreeRows.lean` derive their invariants from them.
-/

namespace Flamingo

/-- A rendered row of the time table, with the values its state was computed from: the date-time
that was tested, the blocked times and the clock. -/
structure TimeRow where
  cell : CelendarVC.TimeCell
  tested : Int
  blocked : List Int
  now : Int

/-- A query in flight and the content of the collection when it was issued. -/
structure PendingQuery where
  query : Query
  issued : List Document

structure CalendarState where
  vc : CelendarVC
  /-- the selected item of the day grid -/
  selectedItem : Option Nat
  rows : Nat → Option TimeRow
  pending : List PendingQuery
  /-- `service_enrty` now, and when the current day was selected -/
  content : List Document
  atSelection : List Document
  /-- whether a response has been handled since the current day was selected -/
  answered : Bool

inductive CalendarEvent
  | write (content : List Document)
  | tapDay (row : Nat) (now : Int)
  | nextMonth (monthFinish : Int)
  | backMonth (monthFinish : Int)
  | response (i : Nat) (documents : List Document)
  | responseError (i : Nat)
  | render (row : Nat) (now : Int)

/-- `data["dttmEntry"] as? Timestamp` -/
def Document.dttmEntry (d : Document) : Option Int := d.data.timestamp? "dttmEntry"

namespace CalendarState

/-! ## The steps -/

/-- The screen after `viewDidLoad`. -/
def opened (vc : CelendarVC) (content : List Document) : CalendarState where
  vc := vc
  selectedItem := none
  rows := fun _ => none
  pending := []
  content := content
  atSelection := []
  answered := false

/-- A tap on a cell of the day grid. Another selected cell is deselected first; a tap on the
selected cell itself selects it once more. -/
def tapDay (s : CalendarState) (row : Nat) (now : Int) : Option CalendarState := do
  let count ← s.vc.numberOfItemsInSection
  if (row : Int) < count ∧ s.vc.cellForItemAt now row = true then
    match s.selectedItem with
    | some selected =>
        if selected = row then
          let (vc, query) := s.vc.didSelectItemAt row
          some { s with vc, pending := s.pending ++ query.toList.map (⟨·, s.content⟩) }
        else
          let (vc, query) := s.vc.didDeselectItemAt.didSelectItemAt row
          some { s with
            vc, selectedItem := some row,
            pending := s.pending ++ query.toList.map (⟨·, s.content⟩),
            atSelection := s.content, answered := false }
    | none =>
        let (vc, query) := s.vc.didSelectItemAt row
        some { s with
          vc, selectedItem := some row,
          pending := s.pending ++ query.toList.map (⟨·, s.content⟩),
          atSelection := s.content, answered := false }
  else none

/-- A month button: `reloadData` of the grid clears the selection without a callback. -/
def changeMonth (s : CalendarState) (enabled : Bool) (vc : Option CelendarVC) :
    Option CalendarState :=
  if enabled then vc.map (fun vc => { s with vc, selectedItem := none }) else none

def response (s : CalendarState) (i : Nat) (documents : List Document) : Option CalendarState :=
  if i < s.pending.length then
    let (vc, reload) := s.vc.receiveTimes documents
    some { s with
      vc, pending := s.pending.eraseIdx i,
      rows := if reload then fun _ => none else s.rows,
      answered := s.answered || reload }
  else none

/-- A row is rendered, after a reload or because it is scrolled into view. -/
def render (s : CalendarState) (row : Nat) (now : Int) : Option CalendarState := do
  let (vc, cell) ← s.vc.cellForRowAt now row
  let tested ← vc.cellDateDateTime
  some { s with
    vc, rows := Function.update s.rows row (some ⟨cell, tested, s.vc.arrayTimesBlock, now⟩) }

def step (s : CalendarState) : CalendarEvent → Option CalendarState
  | .write content => some { s with content }
  | .tapDay row now => s.tapDay row now
  | .nextMonth monthFinish =>
      s.changeMonth s.vc.nextMonthButton (s.vc.actionNextMonth monthFinish)
  | .backMonth monthFinish =>
      s.changeMonth s.vc.backMonthButton (s.vc.actionBackMonth monthFinish)
  | .response i documents => s.response i documents
  | .responseError i => some { s with pending := s.pending.eraseIdx i }
  | .render row now => s.render row now

/-- A tap on a row of the time table that is visible and enabled: the controller that the unwind
segue hands over. -/
def tapTime (s : CalendarState) (row : Nat) : Option CelendarVC :=
  if s.vc.tableViewTimeHidden then none
  else match s.rows row with
    | some r => if r.cell.isUserInteractionEnabled then s.vc.didSelectRowAt row else none
    | none => none

end CalendarState

/-- The calendar screen, opened for any service and master on any content of the collection. -/
def calendar : EventMachine CalendarState CalendarEvent where
  init s := ∃ now monthFinish month year service master vc content,
    CelendarVC.viewDidLoad now monthFinish month year service master = some vc ∧
      s = CalendarState.opened vc content
  step := CalendarState.step

/-- Open the screen and run a list of events, each of which has to meet a condition. -/
def calendarRun (C : CalendarState → CalendarEvent → Prop) [∀ s e, Decidable (C s e)]
    (now monthFinish month year : Int) (service : Service) (master : Master)
    (content : List Document) (events : List CalendarEvent) : Option CalendarState :=
  (CelendarVC.viewDidLoad now monthFinish month year service master).bind
    (fun vc => calendar.execWhere C (CalendarState.opened vc content) events)

theorem reach_of_calendarRun {C : CalendarState → CalendarEvent → Prop}
    [∀ s e, Decidable (C s e)] {now monthFinish month year : Int} {service : Service}
    {master : Master} {content : List Document} {events : List CalendarEvent} {s : CalendarState}
    (h : calendarRun C now monthFinish month year service master content events = some s) :
    calendar.Reach C s := by
  obtain ⟨vc, hload, hexec⟩ := Option.bind_eq_some_iff.mp h
  exact EventMachine.reach_of_execWhere events
    ⟨now, monthFinish, month, year, service, master, vc, content, hload, rfl⟩ hexec

/-- A service of an hour and the midnight that begins February 2020, for the runs on fixed
inputs. -/
def hourService : Service := { id := "service", timeService := "1:00" }

def february2020 : Int := Date.ofMasks (Date.dayNumber 2020 2 1) 0

/-! ## What one step can do -/

namespace CalendarState

/-- The new state of a newly selected day, with the query it sends. -/
theorem tapDay_new {s s' : CalendarState} {row : Nat} {now : Int}
    (hnew : s.selectedItem ≠ some row) (h : s.tapDay row now = some s') :
    ∃ vc, vc = (if s.selectedItem.isSome then s.vc.didDeselectItemAt else s.vc) ∧
      s' = { s with
        vc := (vc.didSelectItemAt row).1, selectedItem := some row,
        pending := s.pending ++ (vc.didSelectItemAt row).2.toList.map (⟨·, s.content⟩)
        atSelection := s.content, answered := false } := by
  simp only [tapDay, Option.bind_eq_bind] at h
  obtain ⟨count, -, h⟩ := Option.bind_eq_some_iff.mp h
  split_ifs at h with henabled
  cases hsel : s.selectedItem with
  | none =>
      rw [hsel] at h
      exact ⟨s.vc, by simp, (Option.some.inj h).symm⟩
  | some selected =>
      rw [hsel] at h hnew
      simp only at h
      split_ifs at h with hsame
      · exact absurd (congrArg some hsame) hnew
      · exact ⟨s.vc.didDeselectItemAt, by simp, (Option.some.inj h).symm⟩

/-- What a tap on the grid does: the selected cell is selected again, or a cell is newly selected
after the table has been hidden if another cell was selected. -/
theorem tapDay_cases {s s' : CalendarState} {row : Nat} {now : Int}
    (h : s.tapDay row now = some s') :
    (s.selectedItem = some row ∧ ∃ pending,
      s' = { s with vc := (s.vc.didSelectItemAt row).1, pending := pending }) ∨
    (s.selectedItem ≠ some row ∧ ∃ vc pending,
      vc = (if s.selectedItem.isSome then s.vc.didDeselectItemAt else s.vc) ∧
      s' = { s with
        vc := (vc.didSelectItemAt row).1, selectedItem := some row, pending := pending,
        atSelection := s.content, answered := false }) := by
  by_cases hsel : s.selectedItem = some row
  · simp only [tapDay, Option.bind_eq_bind] at h
    obtain ⟨count, -, h⟩ := Option.bind_eq_some_iff.mp h
    split_ifs at h with henabled
    simp only [hsel, if_true] at h
    exact Or.inl ⟨hsel, _, by rw [hsel]; exact (Option.some.inj h).symm⟩
  · obtain ⟨vc, hvc, heq⟩ := tapDay_new hsel h
    exact Or.inr ⟨hsel, vc, _, hvc, heq⟩

theorem response_cases {s s' : CalendarState} {i : Nat} {documents : List Document}
    (h : s.response i documents = some s') :
    ∃ p, s.pending[i]? = some p ∧
      (((CelendarVC.appendTimes documents).2 = true ∧
        s' = { s with
          vc := { s.vc with
            arrayTimesBlock := s.vc.arrayTimesBlock ++ (CelendarVC.appendTimes documents).1
            tableViewTimeHidden := false, activeIndTimeHidden := true }
          pending := s.pending.eraseIdx i, rows := fun _ => none, answered := true }) ∨
       ((CelendarVC.appendTimes documents).2 = false ∧
        s' = { s with
          vc := { s.vc with
            arrayTimesBlock := s.vc.arrayTimesBlock ++ (CelendarVC.appendTimes documents).1 }
          pending := s.pending.eraseIdx i })) := by
  unfold response at h
  split_ifs at h with hi
  refine ⟨s.pending[i], List.getElem?_eq_getElem hi, ?_⟩
  rw [CelendarVC.receiveTimes_eq] at h
  cases hcomplete : (CelendarVC.appendTimes documents).2 with
  | true =>
      rw [hcomplete, if_pos rfl] at h
      exact Or.inl ⟨rfl, by simpa using h.symm⟩
  | false =>
      rw [hcomplete, if_neg Bool.false_ne_true] at h
      exact Or.inr ⟨rfl, by simpa using h.symm⟩

theorem changeMonth_cases {s s' : CalendarState} {monthFinish : Int}
    (h : s.step (.nextMonth monthFinish) = some s' ∨ s.step (.backMonth monthFinish) = some s') :
    ∃ month year currentMonth firstWeeakDayMonth next back,
      s' = { s with
        vc := { s.vc with
          month := month, year := year, currentMonth := currentMonth
          firstWeeakDayMonth := firstWeeakDayMonth
          nextMonthButton := next, backMonthButton := back }
        selectedItem := none } := by
  have key : ∃ vc, (s.vc.actionNextMonth monthFinish = some vc ∨
      s.vc.actionBackMonth monthFinish = some vc) ∧ s' = { s with vc := vc, selectedItem := none } := by
    rcases h with h | h <;> simp only [step, changeMonth] at h <;> split_ifs at h <;>
      obtain ⟨vc, hvc, rfl⟩ := Option.map_eq_some_iff.mp h
    · exact ⟨vc, Or.inl hvc, rfl⟩
    · exact ⟨vc, Or.inr hvc, rfl⟩
  obtain ⟨vc, hvc, rfl⟩ := key
  obtain ⟨month, year, currentMonth, firstWeeakDayMonth, next, back, rfl⟩ := CelendarVC.month_spec hvc
  exact ⟨month, year, currentMonth, firstWeeakDayMonth, next, back, rfl⟩

theorem render_cases {s s' : CalendarState} {row : Nat} {now : Int}
    (h : s.render row now = some s') :
    ∃ cell t, s.vc.rowDate row = some t ∧
      (cell.isUserInteractionEnabled = true → ¬ t < now ∧ t ∉ s.vc.arrayTimesBlock) ∧
      (cell.isUserInteractionEnabled = true → ∃ dateTime,
        s.vc.arrayDateSetviceEntry[row]? = some dateTime ∧
        cell.textLabel = some (Date.hourMinute dateTime) ∧
        cell.detailTextLabel = some (Date.day s.vc.dateDate)) ∧
      s' = { s with
        vc := { s.vc with cellDateDateTime := some t }
        rows := Function.update s.rows row (some ⟨cell, t, s.vc.arrayTimesBlock, now⟩) } := by
  simp only [render, Option.bind_eq_bind] at h
  obtain ⟨⟨vc, cell⟩, hcell, h⟩ := Option.bind_eq_some_iff.mp h
  obtain ⟨dateTime, t, hrow, ht, rfl, henabled, hlabels⟩ := CelendarVC.cellForRowAt_spec hcell
  simp only [Option.bind_some, Option.some.injEq] at h
  refine ⟨cell, t, ?_, henabled.mp, fun he => ⟨dateTime, hrow, hlabels he⟩, h.symm⟩
  rw [CelendarVC.rowDate, hrow, ht]
  rfl

/-- A row after one has been rendered: this one, or a row that was rendered before. -/
theorem rows_of_render {rows : Nat → Option TimeRow} {row row' : Nat} {new r : TimeRow}
    (h : Function.update rows row (some new) row' = some r) :
    (row' = row ∧ new = r) ∨ rows row' = some r := by
  by_cases hrow : row' = row
  · subst hrow
    rw [Function.update_self, Option.some.injEq] at h
    exact Or.inl ⟨rfl, h⟩
  · rw [Function.update_of_ne hrow] at h
    exact Or.inr h

/-! ## What no step changes -/

theorem didSelectItemAt_service (vc : CelendarVC) (row : Nat) :
    (vc.didSelectItemAt row).1.service = vc.service ∧
      (vc.didSelectItemAt row).1.master = vc.master := by
  cases hdate : vc.dateOfCell row with
  | none => simp [CelendarVC.didSelectItemAt_of_none hdate]
  | some d => simp [CelendarVC.didSelectItemAt_of_some hdate]

/-- The service and the master of the screen are those it was opened with. -/
theorem step_frame {s s' : CalendarState} {e : CalendarEvent} (h : s.step e = some s') :
    s'.vc.service = s.vc.service ∧ s'.vc.master = s.vc.master := by
  have hmonth : ∀ monthFinish, s.step (.nextMonth monthFinish) = some s' ∨
      s.step (.backMonth monthFinish) = some s' →
      s'.vc.service = s.vc.service ∧ s'.vc.master = s.vc.master := by
    intro monthFinish hstep
    obtain ⟨month, year, currentMonth, firstWeeakDayMonth, next, back, rfl⟩ :=
      changeMonth_cases hstep
    exact ⟨rfl, rfl⟩
  cases e with
  | write content =>
      obtain rfl := Option.some.inj h
      exact ⟨rfl, rfl⟩
  | tapDay row now =>
      rcases tapDay_cases h with ⟨-, pending, rfl⟩ | ⟨-, vc, pending, hvc, rfl⟩
      · exact didSelectItemAt_service s.vc row
      · obtain ⟨hservice, hmaster⟩ := didSelectItemAt_service vc row
        refine ⟨hservice.trans ?_, hmaster.trans ?_⟩ <;>
          rw [hvc] <;> split_ifs <;> rfl
  | nextMonth monthFinish => exact hmonth monthFinish (Or.inl h)
  | backMonth monthFinish => exact hmonth monthFinish (Or.inr h)
  | response i documents =>
      obtain ⟨p, -, ⟨-, rfl⟩ | ⟨-, rfl⟩⟩ := response_cases h
      · exact ⟨rfl, rfl⟩
      · exact ⟨rfl, rfl⟩
  | responseError i =>
      obtain rfl := Option.some.inj h
      exact ⟨rfl, rfl⟩
  | render row now =>
      obtain ⟨cell, t, -, -, -, rfl⟩ := render_cases h
      exact ⟨rfl, rfl⟩

/-- So are those of the controller that a tap hands over. -/
theorem tapTime_frame {s : CalendarState} {row : Nat} {source : CelendarVC}
    (h : s.tapTime row = some source) :
    source.service = s.vc.service ∧ source.master = s.vc.master := by
  unfold tapTime at h
  split_ifs at h
  cases hr : s.rows row with
  | none => simp [hr] at h
  | some r =>
      simp only [hr] at h
      split_ifs at h
      obtain ⟨t, -, rfl⟩ := CelendarVC.didSelectRowAt_spec h
      exact ⟨rfl, rfl⟩

end CalendarState

end Flamingo
