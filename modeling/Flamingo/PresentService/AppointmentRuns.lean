import Flamingo.PresentService.TappedRow

set_option autoImplicit false

/-! # Runs of the appointment screen

The client scrolls the master table, opens the calendar, comes back with a time or without one,
and presses `makeAppointment`, all any number of times. The calendar that is open runs as the
machine of `CalendarRuns.lean`. The master is read from the scroll position twice: when the
calendar opens and when the appointment is made. The booked triple is the validated one exactly
in the runs in which the two reads give the same master (`allValidated_iff_reach`).
-/

namespace Flamingo

/-- A calendar that was opened from the screen: the row that was read from the master table, and
the screen. -/
structure OpenCalendar where
  row : Nat
  screen : CalendarState

/-- A calendar that has returned a time: what it was opened with, and the time. -/
structure Visit where
  row : Nat
  service : Service
  master : Master
  time : Int

/-- A call of `saveServiceEntryToFirebase` and the calendar that returned last before it. -/
structure SaveCall where
  entry : ServiceEntry
  visit : Option Visit

structure AppointmentState where
  vc : MakeAppointmentVC
  open? : Option OpenCalendar
  returned : Option Visit
  calls : List SaveCall

inductive AppointmentEvent
  | scroll (visibleCells : List Nat)
  | editName (text : String)
  | editPhone (text : String)
  | openCalendar (now monthFinish month year : Int) (content : List Document)
  | calendar (e : CalendarEvent)
  | tapTime (row : Nat)
  | back
  | makeAppointment

namespace AppointmentState

/-- The segue to the calendar. -/
def openCalendar (s : AppointmentState) (now monthFinish month year : Int)
    (content : List Document) : Option AppointmentState := do
  let (service, master) ← s.vc.prepare
  let vc ← CelendarVC.viewDidLoad now monthFinish month year service master
  some { s with open? := some ⟨s.vc.getIdMasterEntry, CalendarState.opened vc content⟩ }

/-- A tap on a time row of the open calendar and the unwind to the screen. -/
def tapTime (s : AppointmentState) (row : Nat) : Option AppointmentState := do
  let c ← s.open?
  let source ← c.screen.tapTime row
  let time ← source.cellDateDateTime
  some { s with
    vc := s.vc.unwindToMakeAppointmentVC source, open? := none,
    returned := some ⟨c.row, source.service, source.master, time⟩ }

/-- The button `makeAppointment`. -/
def press (s : AppointmentState) : Option AppointmentState := do
  let (vc, entry) ← s.vc.makeAppointment
  some { s with vc, calls := s.calls ++ entry.toList.map (⟨·, s.returned⟩) }

def step (s : AppointmentState) : AppointmentEvent → Option AppointmentState
  | .scroll visibleCells => some { s with vc := { s.vc with visibleCells } }
  | .editName text => some { s with vc := { s.vc with nameClient := text } }
  | .editPhone text => some { s with vc := { s.vc with phoneClient := text } }
  | .openCalendar now monthFinish month year content =>
      if s.open?.isSome then none else s.openCalendar now monthFinish month year content
  | .calendar e => do
      let c ← s.open?
      let screen ← c.screen.step e
      some { s with open? := some { c with screen } }
  | .tapTime row => s.tapTime row
  | .back => some { s with open? := none }
  | .makeAppointment => if s.open?.isSome then none else s.press

end AppointmentState

/-- The appointment screen for any service, any masters and any stored person. -/
def appointment : EventMachine AppointmentState AppointmentEvent where
  init s := ∃ now service masters name numberPhone,
    s = ⟨MakeAppointmentVC.viewDidLoad now service masters name numberPhone, none, none, []⟩
  step := AppointmentState.step

/-- The calendar that returned the time of the entry was opened with the service and the master of
the entry. -/
def SaveCall.Validated (call : SaveCall) : Prop :=
  ∃ visit, call.visit = some visit ∧ visit.time = call.entry.dttmEntry ∧
    visit.service.id = call.entry.serviceIdDocument ∧ visit.master.id = call.entry.idMaster

namespace AppointmentState

/-! ## The property and its condition -/

def AllValidated (s : AppointmentState) : Prop := ∀ call ∈ s.calls, call.Validated

/-- The id of the master of a row of the master table. -/
def masterId (s : AppointmentState) (row : Nat) : Option String :=
  s.vc.arrayMaster[row]?.map (·.id)

/-- The three checks of `makeAppointment`. -/
def filled (s : AppointmentState) : Bool :=
  s.vc.checkNameClient && s.vc.checkPhoneClient && s.vc.checkDataEntry

/-- When the button is pressed with the fields filled, the master table shows the same master as
when the calendar that returned last was opened. -/
def SameMaster (s : AppointmentState) : AppointmentEvent → Prop
  | .makeAppointment => s.filled = true → ∀ visit ∈ s.returned,
      s.masterId s.vc.getIdMasterEntry = s.masterId visit.row
  | _ => True

instance (s : AppointmentState) (e : AppointmentEvent) : Decidable (SameMaster s e) :=
  match e with
  | .makeAppointment => inferInstanceAs (Decidable (s.filled = true → ∀ visit ∈ s.returned,
      s.masterId s.vc.getIdMasterEntry = s.masterId visit.row))
  | .scroll _ | .editName _ | .editPhone _ | .openCalendar _ _ _ _ _ | .calendar _ | .tapTime _
  | .back => inferInstanceAs (Decidable True)

/-! ## What one step can do -/

theorem openCalendar_cases {s s' : AppointmentState} {now monthFinish month year : Int}
    {content : List Document} (h : s.openCalendar now monthFinish month year content = some s') :
    ∃ master vc, s.vc.arrayMaster[s.vc.getIdMasterEntry]? = some master ∧
      vc.service = s.vc.service ∧ vc.master = master ∧
      s' = { s with
        open? := some ⟨s.vc.getIdMasterEntry, CalendarState.opened vc content⟩ } := by
  simp only [openCalendar, Option.bind_eq_bind] at h
  obtain ⟨⟨service, master⟩, hprepare, hrest⟩ := Option.bind_eq_some_iff.mp h
  obtain ⟨vc, hload, hs'⟩ := Option.bind_eq_some_iff.mp hrest
  obtain ⟨m, hm, heq⟩ := Option.map_eq_some_iff.mp hprepare
  obtain ⟨rfl, rfl⟩ := Prod.mk.inj heq
  obtain ⟨hservice, hmaster, -, -, -⟩ := CelendarVC.viewDidLoad_spec hload
  exact ⟨m, vc, hm, hservice, hmaster, (Option.some.inj hs').symm⟩

/-- The calendar that is left returns the service and the master it was opened with, and the
screen takes its time over. -/
theorem tapTime_cases {s s' : AppointmentState} {row : Nat} (h : s.tapTime row = some s') :
    ∃ c time, s.open? = some c ∧
      s' = { s with
        vc := { s.vc with
          cellDateDateTime := some time, dateEntry := time, dataReceipt := some time }
        open? := none
        returned := some ⟨c.row, c.screen.vc.service, c.screen.vc.master, time⟩ } := by
  simp only [tapTime, Option.bind_eq_bind] at h
  obtain ⟨c, hopen, h⟩ := Option.bind_eq_some_iff.mp h
  obtain ⟨source, htap, h⟩ := Option.bind_eq_some_iff.mp h
  obtain ⟨time, htime, h⟩ := Option.bind_eq_some_iff.mp h
  obtain ⟨hservice, hmaster⟩ := c.screen.tapTime_frame htap
  refine ⟨c, time, hopen, ?_⟩
  rw [← Option.some.inj h, MakeAppointmentVC.unwind_of_some htime, hservice, hmaster]

/-- The button either sends nothing and leaves the screen as it is, or sends the service of the
screen, its date and the master of the row that is visible. -/
theorem press_cases {s s' : AppointmentState} (h : s.press = some s') :
    (s.filled = false ∧ s' = s) ∨
    (s.filled = true ∧ ∃ entry master, s.vc.arrayMaster[s.vc.getIdMasterEntry]? = some master ∧
      entry.serviceIdDocument = s.vc.service.id ∧ entry.dttmEntry = s.vc.dateEntry ∧
      entry.idMaster = master.id ∧
      s' = { s with
        vc := { s.vc with additingNewEntry := true, serviceEntry := entry }
        calls := s.calls ++ [⟨entry, s.returned⟩] }) := by
  simp only [press, Option.bind_eq_bind] at h
  obtain ⟨⟨vc, entry⟩, hmake, h⟩ := Option.bind_eq_some_iff.mp h
  cases entry with
  | none =>
      obtain ⟨hfilled, rfl⟩ := MakeAppointmentVC.makeAppointment_of_none hmake
      exact Or.inl ⟨hfilled, by simpa using h.symm⟩
  | some entry =>
      obtain ⟨hfilled, hservice, hdate, ⟨master, hmaster, hid⟩, rfl⟩ :=
        MakeAppointmentVC.makeAppointment_spec hmake
      exact Or.inr ⟨hfilled, entry, master, hmaster, hservice, hdate, hid, by simpa using h.symm⟩

/-! ## The invariant -/

structure VisitInv (s : AppointmentState) : Prop where
  /-- the field `dataReceipt` is filled by a returning calendar only -/
  receipt : s.returned = none → s.vc.dataReceipt = none
  returned : ∀ visit, s.returned = some visit → visit.time = s.vc.dateEntry ∧
    visit.service = s.vc.service ∧ s.vc.arrayMaster[visit.row]? = some visit.master
  opened : ∀ c, s.open? = some c → c.screen.vc.service = s.vc.service ∧
    s.vc.arrayMaster[c.row]? = some c.screen.vc.master

/-- A step that keeps the service, the masters and the date of the screen, the visit and the open
calendar keeps the invariant. -/
theorem VisitInv.frame {s s' : AppointmentState} (hi : VisitInv s)
    (hreceipt : s'.vc.dataReceipt = s.vc.dataReceipt) (hdate : s'.vc.dateEntry = s.vc.dateEntry)
    (hservice : s'.vc.service = s.vc.service) (hmasters : s'.vc.arrayMaster = s.vc.arrayMaster)
    (hreturned : s'.returned = s.returned) (hopen : s'.open? = s.open?) : VisitInv s' := by
  refine ⟨?_, ?_, ?_⟩
  · rw [hreturned, hreceipt]
    exact hi.receipt
  · rw [hreturned, hdate, hservice, hmasters]
    exact hi.returned
  · rw [hopen, hservice, hmasters]
    exact hi.opened

theorem visitInv_step {s s' : AppointmentState} {e : AppointmentEvent} (hi : VisitInv s)
    (h : s.step e = some s') : VisitInv s' := by
  cases e with
  | scroll visibleCells =>
      obtain rfl := Option.some.inj h
      exact hi.frame rfl rfl rfl rfl rfl rfl
  | editName text =>
      obtain rfl := Option.some.inj h
      exact hi.frame rfl rfl rfl rfl rfl rfl
  | editPhone text =>
      obtain rfl := Option.some.inj h
      exact hi.frame rfl rfl rfl rfl rfl rfl
  | openCalendar now monthFinish month year content =>
      simp only [step] at h
      split_ifs at h
      obtain ⟨master, vc, hmaster, hservice, hvc, rfl⟩ := openCalendar_cases h
      refine ⟨hi.receipt, hi.returned, ?_⟩
      intro c hc
      obtain rfl := Option.some.inj hc
      exact ⟨hservice, hvc ▸ hmaster⟩
  | calendar e =>
      simp only [step, Option.bind_eq_bind] at h
      obtain ⟨c, hopen, h⟩ := Option.bind_eq_some_iff.mp h
      obtain ⟨screen, hscreen, h⟩ := Option.bind_eq_some_iff.mp h
      obtain rfl := Option.some.inj h
      obtain ⟨hservice, hmaster⟩ := CalendarState.step_frame hscreen
      refine ⟨hi.receipt, hi.returned, ?_⟩
      intro c' hc'
      obtain rfl := Option.some.inj hc'
      simp only [hservice, hmaster]
      exact hi.opened c hopen
  | tapTime row =>
      obtain ⟨c, time, hopen, rfl⟩ := tapTime_cases h
      obtain ⟨hservice, hmaster⟩ := hi.opened c hopen
      -- the calendar is gone, and its visit is the one that returned last
      refine ⟨?_, ?_, ?_⟩
      · intro hnone
        simp at hnone
      · intro visit hvisit
        obtain rfl := Option.some.inj hvisit
        exact ⟨rfl, hservice, hmaster⟩
      · intro c hc
        simp at hc
  | back =>
      obtain rfl := Option.some.inj h
      exact ⟨hi.receipt, hi.returned, fun c hc => by simp at hc⟩
  | makeAppointment =>
      simp only [step] at h
      split_ifs at h
      rcases press_cases h with ⟨-, rfl⟩ | ⟨-, entry, master, -, -, -, -, rfl⟩
      · exact hi
      · exact hi.frame rfl rfl rfl rfl rfl rfl

theorem visitInv_init {s : AppointmentState} (h : appointment.init s) :
    VisitInv s ∧ s.AllValidated := by
  obtain ⟨now, service, masters, name, numberPhone, rfl⟩ := h
  refine ⟨⟨fun _ => rfl, ?_, ?_⟩, ?_⟩
  · intro visit hvisit
    simp at hvisit
  · intro c hc
    simp at hc
  · intro call hc
    simp at hc

/-! ## The calls -/

/-- Calls are only ever added, and only by the button. -/
theorem calls_of_step {s s' : AppointmentState} {e : AppointmentEvent} (h : s.step e = some s')
    (he : e ≠ .makeAppointment) : s'.calls = s.calls := by
  cases e with
  | scroll visibleCells => exact (Option.some.inj h) ▸ rfl
  | editName text => exact (Option.some.inj h) ▸ rfl
  | editPhone text => exact (Option.some.inj h) ▸ rfl
  | openCalendar now monthFinish month year content =>
      simp only [step] at h
      split_ifs at h
      obtain ⟨master, vc, -, -, -, rfl⟩ := openCalendar_cases h
      rfl
  | calendar e =>
      simp only [step, Option.bind_eq_bind] at h
      obtain ⟨c, hopen, h⟩ := Option.bind_eq_some_iff.mp h
      obtain ⟨screen, hscreen, h⟩ := Option.bind_eq_some_iff.mp h
      exact (Option.some.inj h) ▸ rfl
  | tapTime row =>
      obtain ⟨c, time, -, rfl⟩ := tapTime_cases h
      rfl
  | back => exact (Option.some.inj h) ▸ rfl
  | makeAppointment => exact absurd rfl he

/-- **One press.** The call that a press adds is validated exactly if the table shows the master
that the calendar was opened with. -/
theorem press_validated {s s' : AppointmentState} (hi : VisitInv s) (h : s.press = some s') :
    s'.AllValidated ↔ s.AllValidated ∧ s.SameMaster .makeAppointment := by
  rcases press_cases h with ⟨hfilled, rfl⟩ | ⟨hfilled, entry, master, hmaster, hservice, hdate, hid, rfl⟩
  · -- a field is not filled: nothing is sent
    refine ⟨?_, And.left⟩
    intro hall
    refine ⟨hall, ?_⟩
    intro hf
    rw [hfilled] at hf
    cases hf
  · have hshown : s.masterId s.vc.getIdMasterEntry = some entry.idMaster := by
      rw [masterId, hmaster, Option.map_some, hid]
    -- a filled `dataReceipt` comes from a calendar that has returned
    obtain ⟨visit, hvisit⟩ : ∃ visit, s.returned = some visit := by
      cases hret : s.returned with
      | none =>
          simp [filled, MakeAppointmentVC.checkDataEntry, hi.receipt hret] at hfilled
      | some visit => exact ⟨visit, rfl⟩
    obtain ⟨htime, hvservice, hvmaster⟩ := hi.returned visit hvisit
    have hopened : s.masterId visit.row = some visit.master.id := by
      rw [masterId, hvmaster, Option.map_some]
    have hcall : SaveCall.Validated ⟨entry, s.returned⟩ ↔ visit.master.id = entry.idMaster := by
      constructor
      · rintro ⟨v, hv, -, -, hm⟩
        rw [hvisit, Option.some.injEq] at hv
        exact hv ▸ hm
      · intro hm
        exact ⟨visit, hvisit, by rw [htime, hdate], by rw [hvservice, hservice], hm⟩
    have hsame : s.SameMaster .makeAppointment ↔ visit.master.id = entry.idMaster := by
      constructor
      · intro hs
        have := hs hfilled visit hvisit
        rw [hshown, hopened, Option.some.injEq] at this
        exact this.symm
      · intro hm _ v hv
        rw [Option.mem_def, hvisit, Option.some.injEq] at hv
        rw [← hv, hshown, hopened, hm]
    rw [hsame, ← hcall]
    simp only [AllValidated, List.mem_append, List.mem_singleton]
    constructor
    · exact fun hall => ⟨fun call hc => hall call (Or.inl hc), hall _ (Or.inr rfl)⟩
    · rintro ⟨hall, hnew⟩ call (hc | rfl)
      · exact hall call hc
      · exact hnew

theorem step_validated {s s' : AppointmentState} {e : AppointmentEvent} (hi : VisitInv s)
    (h : s.step e = some s') : s'.AllValidated ↔ s.AllValidated ∧ s.SameMaster e := by
  by_cases he : e = .makeAppointment
  · subst he
    simp only [step] at h
    split_ifs at h
    exact press_validated hi h
  · have hcond : s.SameMaster e := by
      cases e with
      | makeAppointment => exact absurd rfl he
      | scroll _ | editName _ | editPhone _ | openCalendar _ _ _ _ _ | calendar _ | tapTime _
      | back => trivial
    simp only [AllValidated, calls_of_step h he, hcond, and_true]

end AppointmentState

/-! ## The runs of the screen -/

/-- **The booked triple is the validated triple** in exactly the runs in which, at every press with
the fields filled, the table shows the master that the last calendar was opened with. -/
theorem allValidated_iff_reach (s : AppointmentState) (h : appointment.Reachable s) :
    s.AllValidated ↔ appointment.Reach AppointmentState.SameMaster s :=
  h.iff_reach AppointmentState.VisitInv AppointmentState.AllValidated
    (fun _ h0 => AppointmentState.visitInv_init h0)
    (fun _ _ _ hi hs => AppointmentState.visitInv_step hi hs)
    (fun _ _ _ hi hs => AppointmentState.step_validated hi hs)

/-- The screen with two masters and its fields filled in. -/
def twoMasters : MakeAppointmentVC :=
  MakeAppointmentVC.viewDidLoad february2020 hourService [{ id := "anna" }, { id := "olga" }]
    "Client" "+7 (900) 000-00-0"

/-- The first master is shown, the calendar is opened and returns the fifth of February, 10:00. -/
def returnedEvents : List AppointmentEvent :=
  [.scroll [1], .openCalendar february2020 2 1 2020 []] ++
    answeredEvents.map .calendar ++ [.tapTime 0]

theorem reachable_of_twoMasters {s : AppointmentState} {events : List AppointmentEvent}
    (h : appointment.exec ⟨twoMasters, none, none, []⟩ events = some s) :
    appointment.Reachable s :=
  EventMachine.reachable_of_exec events ⟨_, _, _, _, _, rfl⟩ h

/-- The appointment is made under the row the calendar was opened from. -/
theorem allValidated_same_row : ∃ s, appointment.Reachable s ∧
    s.calls.map (·.entry.idMaster) = ["anna"] ∧
    (s.AllValidated ↔ appointment.Reach AppointmentState.SameMaster s) := by
  have hrun : (appointment.exec ⟨twoMasters, none, none, []⟩
      (returnedEvents ++ [.makeAppointment])).map (·.calls.map (·.entry.idMaster))
        = some ["anna"] := by decide
  obtain ⟨s, hs, hcalls⟩ := Option.map_eq_some_iff.mp hrun
  have hreach := reachable_of_twoMasters hs
  exact ⟨s, hreach, hcalls, allValidated_iff_reach s hreach⟩

/-- **The other master.** The table is scrolled to the second master before the button is pressed:
the time was offered for the first. -/
theorem not_allValidated : ¬ ∀ s, appointment.Reachable s → s.AllValidated := by
  intro hall
  have hrun : (appointment.exec ⟨twoMasters, none, none, []⟩
      (returnedEvents ++ [.scroll [2], .makeAppointment])).map
        (·.calls.map (fun call => (call.visit.map (·.master.id), call.entry.idMaster)))
          = some [(some "anna", "olga")] := by decide
  obtain ⟨s, hs, hcalls⟩ := Option.map_eq_some_iff.mp hrun
  obtain ⟨call, hcall, heq⟩ : ∃ call ∈ s.calls,
      (call.visit.map (·.master.id), call.entry.idMaster) = (some "anna", "olga") :=
    List.mem_map.mp (by rw [hcalls]; exact List.mem_singleton_self _)
  obtain ⟨visit, hvisit, -, -, hmaster⟩ := hall s (reachable_of_twoMasters hs) call hcall
  obtain ⟨hopened, hbooked⟩ := Prod.mk.inj heq
  rw [hvisit, Option.map_some, Option.some.injEq, hmaster, hbooked] at hopened
  exact absurd hopened (by decide)

end Flamingo
