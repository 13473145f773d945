import Flamingo.PresentService.VisitChecks

set_option autoImplicit false

/-! # Any free time can be booked

The run of one client that shows what the others may have to put up with: it comes to the screen of
a service, opens the calendar at the midnight of a day that is no leap day, taps the day, waits for
the answer, and books any start time of the day that no document has. Nothing is written in between.
-/

namespace Flamingo

/-! ## The calendar -/

/-- A month of the calendar can be opened for a service whose start times are listed. -/
theorem CelendarVC.exists_viewDidLoad {now monthFinish month year : Int} {service : Service}
    (master : Master) {currentMonth : String} {first : Int} {slots : List Int}
    (hmonth : arrayAt arrayMonth month = some currentMonth)
    (hfirst : firstDayMonth month year = some first)
    (hslots : createDataEntry now service.timeService = some slots) :
    ∃ vc, viewDidLoad now monthFinish month year service master = some vc ∧
      vc.month = month ∧ vc.year = year ∧ vc.firstWeeakDayMonth = first ∧
      vc.arrayDateSetviceEntry = slots := by
  obtain ⟨next, back, hcheck⟩ := checkMonth_frame monthFinish
    { service, master, month, year, currentMonth, firstWeeakDayMonth := first,
      nextMonthButton := true, backMonthButton := true, dateDate := now,
      arrayDateSetviceEntry := slots, cellDateDateTime := none, arrayTimesBlock := [],
      tableViewTimeHidden := true, activeIndTimeHidden := true }
  have hload : viewDidLoad now monthFinish month year service master
      = some {
          service, master, month, year, currentMonth, firstWeeakDayMonth := first
          nextMonthButton := next, backMonthButton := back, dateDate := now
          arrayDateSetviceEntry := slots, cellDateDateTime := none, arrayTimesBlock := []
          tableViewTimeHidden := true, activeIndTimeHidden := true } := by
    simp only [viewDidLoad, hmonth, hfirst, hslots, Option.bind_eq_bind, Option.bind_some, hcheck]
  exact ⟨_, hload, rfl, rfl, rfl, rfl⟩

namespace CalendarState

/-- The cell of a day that is no leap day can be tapped until 20:00. -/
theorem tapDay_of_day {vc : CelendarVC} {n now : Int} (content : List Document)
    (hshows : vc.ShowsMonth) (hmonth : vc.month = Date.month n - 1) (hyear : vc.year = Date.yearOf n)
    (hday : ¬ LeapDay (Date.midnight n)) (hnow : now ≤ Date.ofMasks n 72000) :
    ∃ row s, (opened vc content).tapDay row now = some s ∧
      s.vc = { vc with dateDate := Date.ofMasks n 0, activeIndTimeHidden := false } ∧
      s.pending = [⟨vc.getTimesIsGreaterThan (Date.ofMasks n 0), content⟩] := by
  obtain ⟨⟨h0, h11⟩, hfirst⟩ := CelendarVC.firstDayMonth_eq_some.mp hshows
  obtain ⟨table, htable, -⟩ := CelendarVC.daysInMonths_eq h0 h11 vc.year
  obtain ⟨hpos, hlength⟩ := Date.dayOfMonth_bounds n
  have hle : Date.dayOfMonth n ≤ table := by
    rw [hmonth] at htable
    apply ((CelendarVC.daysInMonths_le (Date.month_bounds n) htable).2 _ hlength).mpr
    have hmidnight : Date.day (Date.midnight n) = n := by
      unfold Date.midnight Date.day
      exact Int.mul_ediv_cancel _ (by decide)
    rw [LeapDay, hmidnight] at hday
    exact hday
  obtain ⟨row, hrow⟩ := Int.eq_ofNat_of_zero_le
    (by omega : 0 ≤ Date.dayOfMonth n + vc.firstWeeakDayMonth - 2)
  have hcell : vc.dayForCell row = Date.dayOfMonth n := by
    unfold CelendarVC.dayForCell
    omega
  have htext : ∀ time, Date.ofText vc.year (vc.month + 1) (vc.dayForCell row) time
      = some (Date.ofMasks n time) := by
    intro time
    rw [hcell, hyear, hmonth, sub_add_cancel, Date.ofText_civil]
  have hcount : vc.numberOfItemsInSection = some (table + vc.firstWeeakDayMonth - 1) := by
    rw [CelendarVC.numberOfItemsInSection, htable, Option.map_some]
  have henabled : vc.cellForItemAt now row = true := by
    rw [CelendarVC.cellForItemAt, if_neg (by omega), htext]
    simp only [Bool.not_eq_true', decide_eq_false_iff_not, Int.not_lt]
    exact hnow
  have hin : (row : Int) < table + vc.firstWeeakDayMonth - 1 := by omega
  refine ⟨row, { opened vc content with
    vc := { vc with dateDate := Date.ofMasks n 0, activeIndTimeHidden := false }
    selectedItem := some row
    pending := [⟨vc.getTimesIsGreaterThan (Date.ofMasks n 0), content⟩]
    atSelection := content }, ?_, rfl, rfl⟩
  simp only [tapDay, opened, hcount, Option.bind_eq_bind, Option.bind_some, henabled, and_true,
    if_pos hin, CelendarVC.didSelectItemAt_of_some (htext 0)]
  rfl

/-- The answer to a query for the times after a date is handled to its end: its times are blocked and
the table is shown. -/
theorem response_getDocuments {s : CalendarState} {i : Nat} {p : PendingQuery} {date : Int}
    (hp : s.pending[i]? = some p) (hquery : p.query = s.vc.getTimesIsGreaterThan date)
    (documents : List Document) :
    ∃ s', s.response i (p.query.getDocuments documents) = some s' ∧
      s'.vc = { s.vc with
        arrayTimesBlock :=
          s.vc.arrayTimesBlock ++ (p.query.getDocuments documents).filterMap (·.dttmEntry)
        tableViewTimeHidden := false, activeIndTimeHidden := true } := by
  obtain ⟨hi, -⟩ := List.getElem?_eq_some_iff.mp hp
  rw [hquery, response, if_pos hi, CelendarVC.receiveTimes_eq,
    CelendarVC.appendTimes_of_timestamps Flow.timestamps_of_getDocuments]
  exact ⟨_, rfl, rfl⟩

/-- A row whose time is neither past nor blocked is rendered so that it can be tapped. -/
theorem render_of_free {s : CalendarState} {row : Nat} {now t : Int}
    (hrow : s.vc.rowDate row = some t) (hnow : ¬ t < now) (hfree : t ∉ s.vc.arrayTimesBlock) :
    ∃ s' r, s.render row now = some s' ∧ s'.vc = { s.vc with cellDateDateTime := some t } ∧
      s'.rows row = some r ∧ r.cell.isUserInteractionEnabled = true ∧ r.tested = t := by
  obtain ⟨dateTime, hentry, ht⟩ := Option.map_eq_some_iff.mp hrow
  simp only [render, CelendarVC.cellForRowAt, hentry, Option.bind_eq_bind, Option.bind_some, ht,
    if_neg hnow, List.contains_iff_mem, if_neg hfree]
  exact ⟨_, _, rfl, rfl, Function.update_self _ _ _, rfl, rfl⟩

theorem tapTime_of_enabled {s : CalendarState} {row : Nat} {r : TimeRow} {t : Int}
    (hvisible : s.vc.tableViewTimeHidden = false) (hr : s.rows row = some r)
    (henabled : r.cell.isUserInteractionEnabled = true) (hrow : s.vc.rowDate row = some t) :
    s.tapTime row = some { s.vc with cellDateDateTime := some t } := by
  obtain ⟨dateTime, hentry, ht⟩ := Option.map_eq_some_iff.mp hrow
  simp only [tapTime, hvisible, Bool.false_eq_true, if_false, hr, henabled, if_true,
    CelendarVC.didSelectRowAt, hentry, Option.bind_eq_bind, Option.bind_some, ht]

/-- **A start time that no document has** is offered: the month of the day is opened, its cell is
tapped, the answer is what the query finds, and the row is rendered and tapped. -/
theorem exists_offer {service : Service} {T n t : Int} {k : Nat} {content : List Document}
    (hT : 0 < T) (hread : timeIntervalMinute service.timeService = .minutes T)
    (hk : k < slotCount T) (hday : ¬ LeapDay (Date.midnight n))
    (ht : Date.ofMasks n (36000 + k * (60 * T)) = t)
    (hfree : ∀ d ∈ content, d.dttmEntry ≠ some t) (master : Master) :
    ∃ month year vc row query s₁ s₂ s₃ r source,
      CelendarVC.viewDidLoad (Date.midnight n) 1 month year service master = some vc ∧
      (opened vc content).step (.tapDay row (Date.midnight n)) = some s₁ ∧
      s₁.pending = [⟨query, content⟩] ∧ query.lowerBound = some (Date.midnight n) ∧
      s₁.step (.response 0 (query.getDocuments content)) = some s₂ ∧
      s₂.step (.render k (Date.midnight n)) = some s₃ ∧ s₃.rows k = some r ∧ r.tested = t ∧
      s₃.tapTime k = some source ∧ source.cellDateDateTime = some t := by
  -- the month of the day
  obtain ⟨hmonth1, hmonth12⟩ := Date.month_bounds n
  obtain ⟨currentMonth, hcurrent⟩ :
      ∃ currentMonth, arrayAt arrayMonth ((Date.month n : Int) - 1) = some currentMonth := by
    interval_cases Date.month n <;> exact ⟨_, rfl⟩
  obtain ⟨first, hfirst⟩ := CelendarVC.exists_firstDayMonth
    (by omega : (0 : Int) ≤ Date.month n - 1) (by omega) (Date.yearOf n)
  obtain ⟨vc, hload, hmonth, hyear, -, hrows⟩ :
      ∃ vc, CelendarVC.viewDidLoad (Date.midnight n) 1 (Date.month n - 1) (Date.yearOf n) service
          master = some vc ∧ _ :=
    CelendarVC.exists_viewDidLoad master hcurrent hfirst
      (createDataEntry_eq (Date.midnight n) hT hread)
  obtain ⟨-, -, hblock, -, -⟩ := CelendarVC.viewDidLoad_spec hload
  have hmidnight : Date.midnight n = Date.ofMasks n 0 := by
    unfold Date.midnight Date.ofMasks
    ring
  have hnow : Date.midnight n ≤ Date.ofMasks n 72000 := by
    unfold Date.midnight Date.ofMasks
    omega
  obtain ⟨row, s₁, htap, hvc₁, hpending⟩ := tapDay_of_day content
    (CelendarVC.showsMonth_of_viewDidLoad hload) hmonth hyear hday hnow
  -- the answer blocks the times of the documents, and this one is none of them
  obtain ⟨s₂, hresponse, hvc₂⟩ := response_getDocuments (s := s₁) (i := 0)
    (p := ⟨vc.getTimesIsGreaterThan (Date.ofMasks n 0), content⟩) (by rw [hpending]; rfl) rfl content
  have hrow : s₂.vc.rowDate k = some t := by
    rw [hvc₂, hvc₁]
    show vc.arrayDateSetviceEntry[k]?.map _ = _
    rw [hrows, List.getElem?_map, List.getElem?_range hk, Option.map_some, Option.map_some,
      slot_time hT hk, Date.day_ofMasks (le_refl 0) (by decide), ht]
  have hopen : t ∉ s₂.vc.arrayTimesBlock := by
    rw [hvc₂, hvc₁]
    show t ∉ vc.arrayTimesBlock ++
      ((vc.getTimesIsGreaterThan (Date.ofMasks n 0)).getDocuments content).filterMap (·.dttmEntry)
    rw [hblock, List.nil_append]
    intro hmem
    obtain ⟨d, hd, hdt⟩ := List.mem_filterMap.mp hmem
    exact hfree d (CelendarVC.mem_getDocuments_iff.mp hd).1 hdt
  have hafter : ¬ t < Date.midnight n := by
    have hnonneg : (0 : Int) ≤ k * (60 * T) := by positivity
    rw [← ht]
    unfold Date.midnight Date.ofMasks
    omega
  obtain ⟨s₃, r, hrender, hvc₃, hr, henabled, htested⟩ := render_of_free hrow hafter hopen
  have hvisible : s₃.vc.tableViewTimeHidden = false := by rw [hvc₃, hvc₂]
  have hrow₃ : s₃.vc.rowDate k = some t := by
    rw [hvc₃]
    exact hrow
  exact ⟨_, _, vc, row, vc.getTimesIsGreaterThan (Date.ofMasks n 0), s₁, s₂, s₃, r, _, hload, htap,
    hpending, congrArg some hmidnight.symm, hresponse, hrender, hr, htested,
    tapTime_of_enabled hvisible hr henabled hrow₃, rfl⟩

end CalendarState

/-! ## The client -/

/-- The appointment screen with one master, shown, and its fields filled in. -/
def appointmentFor (now : Int) (service : Service) : MakeAppointmentVC :=
  { MakeAppointmentVC.viewDidLoad now service [{ id := "anna" }] "Client"
      "+7 (900) 000-00-0" with visibleCells := [1] }

/-- The screen sends an entry for its master and the date it has taken over. -/
theorem makeAppointment_for (now : Int) (service : Service) (t : Int) :
    ∃ vc entry, ({ appointmentFor now service with
        cellDateDateTime := some t, dateEntry := t, dataReceipt := some t } :
        MakeAppointmentVC).makeAppointment = some (vc, some entry) ∧
      entry.idMaster = "anna" ∧ entry.dttmEntry = t := by
  have hname : "Client".isEmpty = false := by decide
  have hphone : ("+7 (900) 000-00-0".isEmpty || "+7 (900) 000-00-0".length != 17) = false := by
    decide
  simp only [MakeAppointmentVC.makeAppointment, MakeAppointmentVC.checkNameClient,
    MakeAppointmentVC.checkPhoneClient, MakeAppointmentVC.checkDataEntry, appointmentFor,
    MakeAppointmentVC.viewDidLoad, hname, hphone, Option.isSome_some, Bool.not_false,
    Bool.and_true, if_true]
  exact ⟨_, _, rfl, rfl, rfl⟩

/-- One client on a collection that does not change. -/
def atScreen (content : List Document) : EventMachine Client ClientEvent where
  init c := ∃ now service masters name numberPhone,
    c = Client.viewDidLoad now service masters name numberPhone
  step := Client.step content

namespace Client

/-- The calendar that is open makes a step. -/
theorem onScreen_of_open {c : Client} {o : OpenCalendar} {e : CalendarEvent} {screen : CalendarState}
    (ho : c.screen.open? = some o) (h : o.screen.step e = some screen) :
    c.onScreen (.calendar e)
      = some { c with screen := { c.screen with open? := some { o with screen } } } := by
  simp only [onScreen, AppointmentState.step, ho, Option.bind_eq_bind, Option.bind_some, h,
    Option.map_some]

theorem step_openCalendar {c : Client} (content : List Document) {now monthFinish month year : Int}
    {service : Service} {master : Master} {vc : CelendarVC} (ho : c.screen.open? = none)
    (hprepare : c.screen.vc.prepare = some (service, master))
    (h : CelendarVC.viewDidLoad now monthFinish month year service master = some vc) :
    c.step content (.openCalendar now monthFinish month year) = some { c with
      screen := { c.screen with
        open? := some ⟨c.screen.vc.getIdMasterEntry, CalendarState.opened vc content⟩ }
      answers := [], rendered := fun _ => [] } := by
  simp only [step, openCalendar, onScreen, AppointmentState.step, ho, Option.isSome_none,
    Bool.false_eq_true, if_false, AppointmentState.openCalendar, hprepare, Option.bind_eq_bind,
    Option.bind_some, h, Option.map_some]

theorem step_tapDay {c : Client} {o : OpenCalendar} (content : List Document) {row : Nat} {now : Int}
    {screen : CalendarState} (ho : c.screen.open? = some o)
    (h : ({ o.screen with content } : CalendarState).step (.tapDay row now) = some screen) :
    c.step content (.tapDay row now)
      = some { c with screen := { c.screen with open? := some { o with screen } } } := by
  rw [step, tapDay, onScreen_of_open ho rfl, Option.bind_some]
  exact onScreen_of_open (o := ⟨o.row, { o.screen with content }⟩) rfl h

theorem step_response {c : Client} {o : OpenCalendar} (content : List Document)
    {documents : List Document} {i seen : Nat} {p : PendingQuery} {screen : CalendarState} (ho : c.screen.open? = some o)
    (hp : o.screen.pending[i]? = some p) (hissued : p.issued.length ≤ seen)
    (hseen : seen ≤ content.length)
    (hread : documents.Perm (p.query.getDocuments (content.take seen)))
    (h : o.screen.response i documents = some screen) :
    c.step content (.response i seen documents) = some { c with
      screen := { c.screen with open? := some { o with screen } }
      answers := c.answers ++ [⟨p.query, seen⟩] } := by
  simp only [step, response, ho, Option.bind_eq_bind, Option.bind_some, hp,
    if_pos (And.intro hissued (And.intro hseen hread)),
    onScreen_of_open ho (show o.screen.step (.response i documents) = some screen from h)]

theorem step_render {c : Client} {o : OpenCalendar} (content : List Document) {row : Nat} {now : Int}
    {screen : CalendarState} (ho : c.screen.open? = some o)
    (h : o.screen.render row now = some screen) :
    c.step content (.render row now) = some { c with
      screen := { c.screen with open? := some { o with screen } }
      rendered := Function.update c.rendered row c.answers } := by
  rw [step, render, onScreen_of_open ho (show o.screen.step (.render row now) = some screen from h),
    Option.map_some]

theorem step_tapTime {c : Client} {o : OpenCalendar} (content : List Document) {row : Nat}
    {r : TimeRow} {source : CelendarVC} {t : Int} (ho : c.screen.open? = some o)
    (hr : o.screen.rows row = some r) (h : o.screen.tapTime row = some source)
    (ht : source.cellDateDateTime = some t) :
    c.step content (.tapTime row) = some { c with
      screen := { c.screen with
        vc := { c.screen.vc with cellDateDateTime := some t, dateEntry := t, dataReceipt := some t }
        open? := none, returned := some ⟨o.row, source.service, source.master, t⟩ }
      tapped := some ⟨r, c.rendered row⟩ } := by
  simp only [step, tapTime, onScreen, AppointmentState.step, AppointmentState.tapTime, ho,
    Option.bind_eq_bind, Option.bind_some, hr, h, ht, Option.map_some,
    MakeAppointmentVC.unwind_of_some ht]

/-- A client at the screen of `appointmentFor`, with its calendar open. -/
def atCalendar (now : Int) (service : Service) (screen : CalendarState) (answers : List Answer)
    (rendered : Nat → List Answer) : Client :=
  ⟨⟨appointmentFor now service, some ⟨1, screen⟩, none, []⟩, answers, rendered, none⟩

/-- A client that is at the screen of a service chooses this start time, and has checked it against
all documents. -/
theorem exists_choice {service : Service} {T n t : Int} {k : Nat} {documents : List Document}
    (hT : 0 < T) (hread : timeIntervalMinute service.timeService = .minutes T)
    (hk : k < slotCount T) (hday : ¬ LeapDay (Date.midnight n))
    (ht : Date.ofMasks n (36000 + k * (60 * T)) = t)
    (hfree : ∀ d ∈ documents, d.dttmEntry ≠ some t) :
    ∃ es c, (atScreen documents).exec
        (viewDidLoad (Date.midnight n) service [{ id := "anna" }] "Client" "+7 (900) 000-00-0") es
          = some c ∧
      c.screen.vc = { appointmentFor (Date.midnight n) service with
        cellDateDateTime := some t, dateEntry := t, dataReceipt := some t } ∧
      c.screen.open? = none ∧ c.Checked documents.length := by
  obtain ⟨month, year, vc, row, query, s₁, s₂, s₃, r, source, hload, htap, hpending, hbound,
    hresponse, hrender, hr, htested, hchosen, htime⟩ :=
    CalendarState.exists_offer hT hread hk hday ht hfree { id := "anna" }
  have hall : (query.getDocuments documents).Perm
      (query.getDocuments (documents.take documents.length)) := by rw [List.take_length]
  let now := Date.midnight n
  let answers : List Answer := [⟨query, documents.length⟩]
  have hscroll : Client.step documents
      (viewDidLoad now service [{ id := "anna" }] "Client" "+7 (900) 000-00-0") (.scroll [1])
        = some ⟨⟨appointmentFor now service, none, none, []⟩, [], fun _ => [], none⟩ := rfl
  have hopen := step_openCalendar documents
    (c := ⟨⟨appointmentFor now service, none, none, []⟩, [], fun _ => [], none⟩) rfl rfl hload
  have htap' := step_tapDay documents
    (c := atCalendar now service (CalendarState.opened vc documents) [] (fun _ => [])) rfl htap
  have hresponse' := step_response documents (p := ⟨query, documents⟩)
    (c := atCalendar now service s₁ [] (fun _ => []))
    rfl (by rw [hpending]; rfl) (le_refl _) (le_refl _) hall hresponse
  have hrender' := step_render documents
    (c := atCalendar now service s₂ answers (fun _ => [])) rfl hrender
  have hchoose := step_tapTime documents
    (c := atCalendar now service s₃ answers (Function.update (fun _ => []) k answers))
    rfl hr hchosen htime
  refine ⟨[.scroll [1], .openCalendar now 1 month year, .tapDay row now,
    .response 0 documents.length (query.getDocuments documents), .render k now, .tapTime k], _,
    EventMachine.exec_cons hscroll (EventMachine.exec_cons hopen (EventMachine.exec_cons htap'
      (EventMachine.exec_cons hresponse' (EventMachine.exec_cons hrender'
        (EventMachine.exec_cons hchoose rfl))))), rfl, rfl, ?_⟩
  have hnonneg : (0 : Int) ≤ k * (60 * T) := by positivity
  have hlt : Date.midnight n < t := by
    rw [← ht]
    unfold Date.midnight Date.ofMasks
    omega
  refine ⟨_, rfl, htested, ⟨query, documents.length⟩, ?_, le_refl _, _, hbound, hlt⟩
  show _ ∈ Function.update (fun _ => []) k answers k
  rw [Function.update_self]
  exact List.mem_singleton_self _

end Client

/-! ## The clients -/

namespace ClientsState

/-- What a client does at its screen is a run of the clients that writes nothing. -/
theorem reach_exec {C : ClientsState → ClientsEvent → Prop} {client : Nat}
    (hC : ∀ s e, C s (.client client e)) :
    ∀ (es : List ClientEvent) {s : ClientsState} {c c' : Client}, visits.Reach C s →
      s.clients client = some c →
      (atScreen (s.serviceEnrty.map (·.document))).exec c es = some c' →
      ∃ s', visits.Reach C s' ∧ s'.serviceEnrty = s.serviceEnrty ∧
        s'.clients client = some c' := by
  intro es
  induction es with
  | nil =>
      intro s c c' h hc hexec
      obtain rfl := Option.some.inj hexec
      exact ⟨s, h, rfl, hc⟩
  | cons e es ih =>
      intro s c c' h hc hexec
      obtain ⟨d, hd, hrest⟩ := Option.bind_eq_some_iff.mp hexec
      have hstep : s.step (.client client e) = some (s.setClient client (some d)) := by
        simp only [step, hc, Option.bind_eq_bind, Option.bind_some]
        rw [show c.step (s.serviceEnrty.map (·.document)) e = some d from hd, Option.bind_some]
      have hnext : visits.Reach C (s.setClient client (some d)) := .step h (hC s e) hstep
      obtain ⟨s', hs', hsame, hclient⟩ := ih hnext (clients_setClient _ _ _) hrest
      exact ⟨s', hs', hsame, hclient⟩

theorem press_of_makeAppointment {s : ClientsState} {client : Nat} {c : Client}
    {vc : MakeAppointmentVC} {entry : ServiceEntry} (documentID : String)
    (hc : s.clients client = some c) (hopen : c.screen.open? = none)
    (hmake : c.screen.vc.makeAppointment = some (vc, some entry)) :
    ∃ s' c', s.press client documentID = some s' ∧
      s'.serviceEnrty = s.serviceEnrty ++
        [⟨⟨documentID, saveServiceEntryToFirebase entry⟩, c.screen.vc.service⟩] ∧
      s'.clients client = some c' ∧ c'.screen.open? = none := by
  have hscreen : c.onScreen .makeAppointment = some { c with screen := { c.screen with
      vc := vc, calls := c.screen.calls ++ [⟨entry, c.screen.returned⟩] } } := by
    simp only [Client.onScreen, AppointmentState.step, hopen, Option.isSome_none,
      Bool.false_eq_true, if_false, AppointmentState.press, hmake, Option.bind_eq_bind,
      Option.bind_some, Option.map_some, Option.toList_some, List.map_cons, List.map_nil]
  simp only [press, hc, hscreen, Option.bind_eq_bind, Option.bind_some, List.drop_left]
  exact ⟨_, _, rfl, rfl, Function.update_self _ _ _, hopen⟩

theorem step_exitAction {s : ClientsState} {client : Nat} {c : Client}
    (hc : s.clients client = some c) (hopen : c.screen.open? = none) :
    s.step (.exitAction client) = some (s.setClient client none) := by
  simp only [step, hc, hopen, Option.bind_eq_bind, Option.bind_some, Option.isSome_none,
    Bool.false_eq_true, if_false]

/-- **Any start time that no document has can be booked**, without a write in between. -/
theorem exists_booking {catalogue : Set Service} {service : Service} (hservice : service ∈ catalogue)
    {T n t : Int} {k : Nat} (hT : 0 < T)
    (hread : timeIntervalMinute service.timeService = .minutes T) (hk : k < slotCount T)
    (hday : ¬ LeapDay (Date.midnight n)) (ht : Date.ofMasks n (36000 + k * (60 * T)) = t)
    {s : ClientsState} (h : visits.Reach (SerialOf catalogue) s) (hnone : s.clients 0 = none)
    (hfree : ∀ p ∈ s.serviceEnrty, p.document.dttmEntry ≠ some t) :
    ∃ s' document, visits.Reach (SerialOf catalogue) s' ∧ s'.clients 0 = none ∧
      s'.serviceEnrty = s.serviceEnrty ++ [⟨document, service⟩] ∧
      document.idMaster = some "anna" ∧ document.dttmEntry = some t := by
  -- the client comes to the screen and chooses the time
  have hdocuments : ∀ d ∈ s.serviceEnrty.map (·.document), d.dttmEntry ≠ some t := by
    intro d hd
    obtain ⟨p, hp, rfl⟩ := List.mem_map.mp hd
    exact hfree p hp
  obtain ⟨es, c, hexec, hvc, hopen, hchecked⟩ :=
    Client.exists_choice hT hread hk hday ht hdocuments
  rw [List.length_map] at hchecked
  have hpresent : s.step (.actionPresentMakeApp 0 (Date.midnight n) service [{ id := "anna" }]
      "Client" "+7 (900) 000-00-0") = some (s.setClient 0 (some (Client.viewDidLoad
        (Date.midnight n) service [{ id := "anna" }] "Client" "+7 (900) 000-00-0"))) := by
    simp only [step, hnone, Option.isSome_none, Bool.false_eq_true, if_false]
  have hc : s.SerialOf catalogue (.actionPresentMakeApp 0 (Date.midnight n) service
      [{ id := "anna" }] "Client" "+7 (900) 000-00-0") := ⟨trivial, hservice⟩
  have h₀ : visits.Reach (SerialOf catalogue) _ := .step h hc hpresent
  obtain ⟨s₁, h₁, hsame, hclient⟩ := reach_exec (fun _ _ => ⟨trivial, trivial⟩) es h₀
    (clients_setClient _ _ _) hexec
  have hsame₁ : s₁.serviceEnrty = s.serviceEnrty := hsame
  -- the press sends the entry, and the client leaves
  obtain ⟨vc, entry, hmake, hmaster, hdate⟩ := makeAppointment_for (Date.midnight n) service t
  rw [← hvc] at hmake
  obtain ⟨s₂, c', hpress, hposted, hclient', hopen'⟩ :=
    press_of_makeAppointment "" hclient hopen hmake
  have hserial : s₁.SerialOf catalogue (.makeAppointment 0 "") := by
    refine ⟨?_, trivial⟩
    intro d hd _
    obtain rfl := Option.some.inj (hclient.symm.trans hd)
    rw [hsame₁]
    exact hchecked
  have h₂ : visits.Reach (SerialOf catalogue) s₂ := .step h₁ hserial hpress
  have hleave : s₂.SerialOf catalogue (.exitAction 0) := ⟨trivial, trivial⟩
  refine ⟨_, ⟨"", saveServiceEntryToFirebase entry⟩, .step h₂ hleave (step_exitAction hclient' hopen'),
    ?_, ?_, ?_, ?_⟩
  · exact clients_setClient s₂ 0 none
  · show s₂.serviceEnrty = _
    rw [hposted, hsame₁, hvc]
    rfl
  · rw [← hmaster]
    rfl
  · rw [← hdate]
    rfl

end ClientsState

end Flamingo
