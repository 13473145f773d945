import Flamingo.PresentService.MonthGrid
import Flamingo.PresentService.Visits

set_option autoImplicit false

/-! # What a client has checked

A document can get into the collection for a start time of its service only, on a day that has a
cell in the grid of its month. A row that could be tapped is free of the documents that the server
had read for an answer about its time, as long as the answer was handled before the row was
rendered. Both are invariants of the runs of the clients, with every day tap, month change and
query in flight.
-/

namespace Flamingo

/-! ## What an answer is worth -/

/-- Of the documents that the server had read, the times that the answers are about are blocked. -/
def Blocked (content : List Posted) (answers : List Answer) (blocked : List Int) : Prop :=
  ∀ a ∈ answers, a.seen ≤ content.length ∧
    ∀ p ∈ content.take a.seen, ∀ t, p.document.dttmEntry = some t → a.About t → t ∈ blocked

/-- What the server has read stays a prefix of the collection. -/
theorem Blocked.append {content : List Posted} {answers : List Answer} {blocked : List Int}
    (h : Blocked content answers blocked) (l : List Posted) :
    Blocked (content ++ l) answers blocked := by
  intro a ha
  obtain ⟨hseen, hblocked⟩ := h a ha
  refine ⟨by simp; omega, ?_⟩
  rw [List.take_append_of_le_length hseen]
  exact hblocked

theorem Blocked.mono {content : List Posted} {answers : List Answer} {blocked blocked' : List Int}
    (h : Blocked content answers blocked) (hsub : ∀ t ∈ blocked, t ∈ blocked') :
    Blocked content answers blocked' :=
  fun a ha => ⟨(h a ha).1, fun p hp t ht hlt => hsub t ((h a ha).2 p hp t ht hlt)⟩

/-- **A row that passes its test is free**: no document has its time of those that the server had
read for an answer about this time. -/
def CheckedRow.Sound (content : List Posted) (r : CheckedRow) : Prop :=
  (r.row.cell.isUserInteractionEnabled = true → r.row.tested ∉ r.row.blocked) ∧
    Blocked content r.answers r.row.blocked

/-! ## What a client has checked -/

namespace CalendarState

/-- What holds of an open calendar, with the answers it has handled. -/
structure Sound (content : List Posted) (service : Service) (answers : List Answer)
    (rendered : Nat → List Answer) (s : CalendarState) : Prop where
  serves : s.vc.service = service
  lists : ∃ today, createDataEntry today service.timeService = some s.vc.arrayDateSetviceEntry
  shows : s.vc.ShowsMonth
  /-- before a day has been tapped there is no table and no query -/
  dated : s.vc.tableViewTimeHidden = false ∨ s.pending ≠ [] → ¬ LeapDay s.vc.dateDate
  asked : ∀ p ∈ s.pending, ∃ date, p.query = s.vc.getTimesIsGreaterThan date
  answers : Blocked content answers s.vc.arrayTimesBlock
  rows : ∀ row r, s.rows row = some r → CheckedRow.Sound content ⟨r, rendered row⟩

variable {content : List Posted} {service : Service} {answers : List Answer}
  {rendered : Nat → List Answer}

theorem sound_opened {now monthFinish month year : Int} {master : Master} {vc : CelendarVC}
    (documents : List Document)
    (h : CelendarVC.viewDidLoad now monthFinish month year service master = some vc) :
    (opened vc documents).Sound content service [] (fun _ => []) := by
  obtain ⟨hservice, -, -, hhidden, hslots⟩ := CelendarVC.viewDidLoad_spec h
  refine ⟨hservice, ⟨now, hslots⟩, CelendarVC.showsMonth_of_viewDidLoad h, ?_, ?_, ?_, ?_⟩
  · rintro (hvisible | hpending)
    · simp [opened, hhidden] at hvisible
    · simp [opened] at hpending
  · intro p hp
    simp [opened] at hp
  · intro a ha
    simp at ha
  · intro row r hr
    simp [opened] at hr

/-- A tap on an enabled cell leaves the rows, and its query goes to those in flight. -/
theorem tapDay_spec {s s' : CalendarState} {row : Nat} {now : Int}
    (h : s.tapDay row now = some s') :
    ∃ count vc selectedItem atSelection answered, s.vc.numberOfItemsInSection = some count ∧
      (row : Int) < count ∧ s.vc.cellForItemAt now row = true ∧
      (vc = s.vc ∨ vc = s.vc.didDeselectItemAt) ∧
      s' = { s with
        vc := (vc.didSelectItemAt row).1, selectedItem := selectedItem
        pending := s.pending ++ (vc.didSelectItemAt row).2.toList.map (⟨·, s.content⟩)
        atSelection := atSelection, answered := answered } := by
  simp only [tapDay, Option.bind_eq_bind] at h
  obtain ⟨count, hcount, h⟩ := Option.bind_eq_some_iff.mp h
  split_ifs at h with henabled
  cases hsel : s.selectedItem with
  | none =>
      rw [hsel] at h
      exact ⟨count, s.vc, _, _, _, hcount, henabled.1, henabled.2, Or.inl rfl,
        (Option.some.inj h).symm⟩
  | some selected =>
      rw [hsel] at h
      simp only at h
      split_ifs at h
      · exact ⟨count, s.vc, _, _, _, hcount, henabled.1, henabled.2, Or.inl rfl,
          (Option.some.inj h).symm⟩
      · exact ⟨count, _, _, _, _, hcount, henabled.1, henabled.2, Or.inr rfl,
          (Option.some.inj h).symm⟩

theorem sound_tapDay {s s' : CalendarState} {row : Nat} {now : Int}
    (hi : s.Sound content service answers rendered) (h : s.tapDay row now = some s') :
    s'.Sound content service answers rendered := by
  obtain ⟨count, vc, selectedItem, atSelection, answered, hcount, hrow, hcell, hvc, rfl⟩ :=
    tapDay_spec h
  have hdated : ∀ date, vc.dateOfCell row = some date → ¬ LeapDay date := by
    intro date hdate
    refine CelendarVC.not_leapDay_of_cell hi.shows hcount hrow hcell ?_
    rcases hvc with rfl | rfl <;> exact hdate
  -- hiding the table keeps what holds
  have hhidden : ({ s with vc } : CalendarState).Sound content service answers rendered := by
    rcases hvc with rfl | rfl
    · exact hi
    · refine ⟨hi.serves, hi.lists, hi.shows, ?_, hi.asked, hi.answers, hi.rows⟩
      rintro (hvisible | hpending)
      · simp [CelendarVC.didDeselectItemAt] at hvisible
      · exact hi.dated (Or.inr hpending)
  cases hdate : vc.dateOfCell row with
  | none =>
      -- no date, no query
      simp only [CelendarVC.didSelectItemAt_of_none hdate, Option.toList_none, List.map_nil,
        List.append_nil]
      exact ⟨hhidden.serves, hhidden.lists, hhidden.shows, hhidden.dated, hhidden.asked,
        hhidden.answers, hhidden.rows⟩
  | some date =>
      simp only [CelendarVC.didSelectItemAt_of_some hdate, Option.toList_some, List.map_cons,
        List.map_nil]
      refine ⟨hhidden.serves, hhidden.lists, hhidden.shows, fun _ => hdated date hdate, ?_,
        hhidden.answers, hhidden.rows⟩
      intro p hp
      rcases List.mem_append.mp hp with hp | hp
      · exact hhidden.asked p hp
      · exact ⟨date, by rw [List.mem_singleton.mp hp]; rfl⟩

theorem sound_changeMonth {s s' : CalendarState} {enabled : Bool} {monthFinish : Int}
    {vc : Option CelendarVC} (hi : s.Sound content service answers rendered)
    (hvc : vc = s.vc.actionNextMonth monthFinish ∨ vc = s.vc.actionBackMonth monthFinish)
    (h : s.changeMonth enabled vc = some s') : s'.Sound content service answers rendered := by
  unfold changeMonth at h
  split_ifs at h
  obtain ⟨vc', hvc', rfl⟩ := Option.map_eq_some_iff.mp h
  have hpress : s.vc.actionNextMonth monthFinish = some vc' ∨
      s.vc.actionBackMonth monthFinish = some vc' := by
    rcases hvc with rfl | rfl
    · exact Or.inl hvc'
    · exact Or.inr hvc'
  have hshows := CelendarVC.showsMonth_of_monthChange hpress
  obtain ⟨month, year, currentMonth, firstWeeakDayMonth, next, back, rfl⟩ :=
    CelendarVC.month_spec hpress
  exact ⟨hi.serves, hi.lists, hshows, hi.dated, hi.asked, hi.answers, hi.rows⟩

theorem sound_responseError {s : CalendarState} (i : Nat)
    (hi : s.Sound content service answers rendered) :
    ({ s with pending := s.pending.eraseIdx i } : CalendarState).Sound content service answers
      rendered := by
  refine ⟨hi.serves, hi.lists, hi.shows, ?_, ?_, hi.answers, hi.rows⟩
  · rintro (hvisible | hpending)
    · exact hi.dated (Or.inl hvisible)
    · refine hi.dated (Or.inr ?_)
      rintro hnil
      simp [hnil] at hpending
  · exact fun p hp => hi.asked p (List.mem_of_mem_eraseIdx hp)

/-- **An answer** blocks the times that it is about of all documents that the server had read. -/
theorem sound_response {s s' : CalendarState} {i seen : Nat} {documents : List Document}
    {p : PendingQuery} (hi : s.Sound content service answers rendered)
    (hp : s.pending[i]? = some p) (hseen : seen ≤ content.length)
    (hread : documents.Perm (p.query.getDocuments ((content.map (·.document)).take seen)))
    (h : s.response i documents = some s') :
    s'.Sound content service (answers ++ [⟨p.query, seen⟩]) rendered := by
  have hmem := List.mem_of_getElem? hp
  obtain ⟨date, hquery⟩ := hi.asked p hmem
  have htimes : CelendarVC.appendTimes documents = (documents.filterMap (·.dttmEntry), true) := by
    apply CelendarVC.appendTimes_of_timestamps
    intro d hd
    rw [hread.mem_iff, hquery] at hd
    exact Flow.timestamps_of_getDocuments d hd
  have hnew : ∀ q ∈ content.take seen, ∀ t, q.document.dttmEntry = some t →
      Answer.About ⟨p.query, seen⟩ t → t ∈ documents.filterMap (·.dttmEntry) := by
    rintro q hq t ht ⟨date', hdate', hlt⟩
    rw [hquery] at hdate'
    obtain rfl : date = date' := Option.some.inj hdate'
    refine List.mem_filterMap.mpr ⟨q.document, ?_, ht⟩
    rw [hread.mem_iff, hquery, CelendarVC.mem_getDocuments_iff, ← List.map_take]
    exact ⟨List.mem_map_of_mem hq, t, ht, hlt⟩
  obtain ⟨p', -, ⟨-, rfl⟩ | ⟨hstopped, -⟩⟩ := response_cases h
  · have hrest := sound_responseError i hi
    refine ⟨hi.serves, hi.lists, hi.shows, ?_, hrest.asked, ?_, ?_⟩
    · exact fun _ => hi.dated (Or.inr (List.ne_nil_of_mem hmem))
    · rw [htimes]
      intro a ha
      rcases List.mem_append.mp ha with ha | ha
      · exact (hi.answers.mono (fun t ht => List.mem_append_left _ ht)) a ha
      · obtain rfl := List.mem_singleton.mp ha
        exact ⟨hseen, fun q hq t ht habout => List.mem_append_right _ (hnew q hq t ht habout)⟩
    · intro row r hr
      simp at hr
  · rw [htimes] at hstopped
    cases hstopped

/-- A row is rendered with the answers that have been handled. -/
theorem sound_render {s s' : CalendarState} {row : Nat} {now : Int}
    (hi : s.Sound content service answers rendered) (h : s.render row now = some s') :
    s'.Sound content service answers (Function.update rendered row answers) := by
  obtain ⟨cell, t, -, htest, -, rfl⟩ := render_cases h
  refine ⟨hi.serves, hi.lists, hi.shows, hi.dated, hi.asked, hi.answers, ?_⟩
  intro row' r hr
  by_cases hrow : row' = row
  · subst hrow
    simp only [Function.update_self, Option.some.injEq] at hr ⊢
    subst hr
    exact ⟨fun henabled => (htest henabled).2, hi.answers⟩
  · simp only [Function.update_of_ne hrow] at hr ⊢
    exact hi.rows row' r hr

theorem Sound.append {s : CalendarState} (h : s.Sound content service answers rendered)
    (l : List Posted) : s.Sound (content ++ l) service answers rendered :=
  ⟨h.serves, h.lists, h.shows, h.dated, h.asked, h.answers.append l,
    fun row r hr => ⟨(h.rows row r hr).1, (h.rows row r hr).2.append l⟩⟩

end CalendarState

/-- What holds of a client, for the content of the collection. -/
structure Client.Sound (catalogue : Set Service) (content : List Posted) (c : Client) : Prop where
  service : c.screen.vc.service ∈ catalogue
  date : c.screen.vc.dataReceipt.isSome = true →
    OnGrid c.screen.vc.service c.screen.vc.dateEntry ∧ ¬ LeapDay c.screen.vc.dateEntry
  calendar : ∀ o, c.screen.open? = some o →
    o.screen.Sound content c.screen.vc.service c.answers c.rendered
  tapped : ∀ r, c.tapped = some r → r.row.cell.isUserInteractionEnabled = true ∧ r.Sound content

namespace Client

variable {catalogue : Set Service} {content : List Posted}

theorem Sound.append {c : Client} (h : c.Sound catalogue content) (l : List Posted) :
    c.Sound catalogue (content ++ l) := by
  refine ⟨h.service, h.date, fun o ho => (h.calendar o ho).append l, ?_⟩
  intro r hr
  obtain ⟨henabled, hfree, hblocked⟩ := h.tapped r hr
  exact ⟨henabled, hfree, hblocked.append l⟩

/-- **The row that was tapped** was free of the documents that the server had read for an answer about
its time. -/
theorem Sound.ne_of_read {c : Client} (hi : c.Sound catalogue content) {r : CheckedRow}
    (hr : c.tapped = some r) {a : Answer} (ha : a ∈ r.answers) (habout : a.About r.row.tested) :
    ∀ p ∈ content.take a.seen, p.document.dttmEntry ≠ some r.row.tested := by
  obtain ⟨henabled, hfree, hblocked⟩ := hi.tapped r hr
  intro p hp heq
  exact hfree henabled ((hblocked a ha).2 p hp _ heq habout)

theorem sound_viewDidLoad {service : Service} (hservice : service ∈ catalogue) (now : Int)
    (masters : List Master) (name numberPhone : String) :
    (viewDidLoad now service masters name numberPhone).Sound catalogue content := by
  refine ⟨hservice, ?_, ?_, ?_⟩
  · intro hreceipt
    simp [viewDidLoad, MakeAppointmentVC.viewDidLoad] at hreceipt
  · intro o ho
    simp [viewDidLoad] at ho
  · intro r hr
    simp [viewDidLoad] at hr

/-! ### The events of the screen -/

/-- A step that keeps the service and the date of the screen, and leaves the calendar open or closes
it. -/
theorem Sound.frame {c : Client} (hi : c.Sound catalogue content) {screen : AppointmentState}
    (hservice : screen.vc.service = c.screen.vc.service)
    (hreceipt : screen.vc.dataReceipt = c.screen.vc.dataReceipt)
    (hdate : screen.vc.dateEntry = c.screen.vc.dateEntry)
    (hopen : ∀ o, screen.open? = some o → c.screen.open? = some o) :
    ({ c with screen } : Client).Sound catalogue content := by
  refine ⟨hservice ▸ hi.service, ?_, ?_, hi.tapped⟩
  · rw [hservice, hreceipt, hdate]
    exact hi.date
  · rw [hservice]
    exact fun o ho => hi.calendar o (hopen o ho)

/-- The open calendar makes a step. -/
theorem onScreen_calendar {c c' : Client} {e : CalendarEvent}
    (h : c.onScreen (.calendar e) = some c') :
    ∃ o screen, c.screen.open? = some o ∧ o.screen.step e = some screen ∧
      c' = { c with screen := { c.screen with open? := some { o with screen } } } := by
  obtain ⟨s, hs, rfl⟩ := Option.map_eq_some_iff.mp h
  simp only [AppointmentState.step, Option.bind_eq_bind] at hs
  obtain ⟨o, ho, hs⟩ := Option.bind_eq_some_iff.mp hs
  obtain ⟨screen, hscreen, hs⟩ := Option.bind_eq_some_iff.mp hs
  obtain rfl := Option.some.inj hs
  exact ⟨o, screen, ho, hscreen, rfl⟩

theorem Sound.onCalendar {c : Client} (hi : c.Sound catalogue content) {row : Nat}
    {screen : CalendarState} {answers : List Answer} {rendered : Nat → List Answer}
    (hscreen : screen.Sound content c.screen.vc.service answers rendered) :
    Sound catalogue content { c with
      screen := { c.screen with open? := some ⟨row, screen⟩ }
      answers := answers, rendered := rendered } := by
  refine ⟨hi.service, hi.date, ?_, hi.tapped⟩
  intro o ho
  obtain rfl := Option.some.inj ho
  exact hscreen

/-- An event of the calendar that keeps what holds of the calendar keeps what holds of the client. -/
theorem sound_calendar {c c' : Client} {e : CalendarEvent} (hi : c.Sound catalogue content)
    (hkeeps : ∀ o screen, c.screen.open? = some o → o.screen.step e = some screen →
      screen.Sound content c.screen.vc.service c.answers c.rendered)
    (h : c.onScreen (.calendar e) = some c') : c'.Sound catalogue content := by
  obtain ⟨o, screen, ho, hscreen, rfl⟩ := onScreen_calendar h
  exact hi.onCalendar (hkeeps o screen ho hscreen)

theorem sound_openCalendar {c c' : Client} {documents : List Document}
    {now monthFinish month year : Int} (hi : c.Sound catalogue content)
    (h : c.openCalendar documents now monthFinish month year = some c') :
    c'.Sound catalogue content := by
  obtain ⟨c₁, h₁, rfl⟩ := Option.map_eq_some_iff.mp h
  obtain ⟨s, hs, rfl⟩ := Option.map_eq_some_iff.mp h₁
  simp only [AppointmentState.step] at hs
  split_ifs at hs
  simp only [AppointmentState.openCalendar, Option.bind_eq_bind] at hs
  obtain ⟨⟨service, master⟩, hprepare, hrest⟩ := Option.bind_eq_some_iff.mp hs
  obtain ⟨vc, hload, hs'⟩ := Option.bind_eq_some_iff.mp hrest
  obtain ⟨m, -, heq⟩ := Option.map_eq_some_iff.mp hprepare
  obtain ⟨rfl, rfl⟩ := Prod.mk.inj heq
  obtain rfl := Option.some.inj hs'
  exact hi.onCalendar (CalendarState.sound_opened documents hload)

theorem sound_tapDay {c c' : Client} {documents : List Document} {row : Nat} {now : Int}
    (hi : c.Sound catalogue content) (h : c.tapDay documents row now = some c') :
    c'.Sound catalogue content := by
  obtain ⟨c₁, h₁, h⟩ := Option.bind_eq_some_iff.mp h
  have hwrite : c₁.Sound catalogue content := by
    refine sound_calendar hi ?_ h₁
    intro o screen ho hscreen
    obtain rfl := Option.some.inj hscreen
    have hs := hi.calendar o ho
    exact ⟨hs.serves, hs.lists, hs.shows, hs.dated, hs.asked, hs.answers, hs.rows⟩
  refine sound_calendar hwrite ?_ h
  intro o screen ho hscreen
  exact CalendarState.sound_tapDay (hwrite.calendar o ho) hscreen

theorem sound_response {c c' : Client} {i seen : Nat} {documents : List Document}
    (hi : c.Sound catalogue content)
    (h : c.response (content.map (·.document)) i seen documents = some c') :
    c'.Sound catalogue content := by
  simp only [response, Option.bind_eq_bind] at h
  obtain ⟨o, ho, h⟩ := Option.bind_eq_some_iff.mp h
  obtain ⟨p, hp, h⟩ := Option.bind_eq_some_iff.mp h
  split_ifs at h with hread
  obtain ⟨-, hseen, hperm⟩ := hread
  obtain ⟨c₁, h₁, h⟩ := Option.bind_eq_some_iff.mp h
  obtain rfl := Option.some.inj h
  obtain ⟨o', screen, ho', hscreen, rfl⟩ := onScreen_calendar h₁
  obtain rfl := Option.some.inj (ho.symm.trans ho')
  rw [List.length_map] at hseen
  exact hi.onCalendar (CalendarState.sound_response (hi.calendar o ho) hp hseen hperm hscreen)

theorem sound_render {c c' : Client} {row : Nat} {now : Int} (hi : c.Sound catalogue content)
    (h : c.render row now = some c') : c'.Sound catalogue content := by
  obtain ⟨c₁, h₁, rfl⟩ := Option.map_eq_some_iff.mp h
  obtain ⟨o, screen, ho, hscreen, rfl⟩ := onScreen_calendar h₁
  exact hi.onCalendar (CalendarState.sound_render (hi.calendar o ho) hscreen)

/-- The time that is taken over is a start time of the service on the selected day, and the row that
was tapped could be tapped. -/
theorem sound_tapTime {c c' : Client} {row : Nat} (hi : c.Sound catalogue content)
    (h : c.tapTime row = some c') : c'.Sound catalogue content := by
  simp only [tapTime, Option.bind_eq_bind] at h
  obtain ⟨o, ho, h⟩ := Option.bind_eq_some_iff.mp h
  obtain ⟨r, hr, h⟩ := Option.bind_eq_some_iff.mp h
  obtain ⟨c₁, h₁, h⟩ := Option.bind_eq_some_iff.mp h
  obtain rfl := Option.some.inj h
  obtain ⟨s, hs, rfl⟩ := Option.map_eq_some_iff.mp h₁
  simp only [AppointmentState.step, AppointmentState.tapTime, Option.bind_eq_bind] at hs
  rw [ho, Option.bind_some] at hs
  obtain ⟨source, htap, hs⟩ := Option.bind_eq_some_iff.mp hs
  obtain ⟨time, htime, hs⟩ := Option.bind_eq_some_iff.mp hs
  obtain rfl := Option.some.inj hs
  have hcalendar := hi.calendar o ho
  unfold CalendarState.tapTime at htap
  rw [hr] at htap
  split_ifs at htap with hhidden
  simp only at htap
  split_ifs at htap with henabled
  obtain ⟨t, hrow, rfl⟩ := CelendarVC.didSelectRowAt_spec htap
  obtain rfl := Option.some.inj htime
  rw [MakeAppointmentVC.unwind_of_some rfl]
  obtain ⟨dateTime, hentry, ht⟩ := Option.map_eq_some_iff.mp hrow
  obtain ⟨today, hslots⟩ := hcalendar.lists
  obtain ⟨hopen, hclose, -⟩ := time_of_mem_createDataEntry hslots dateTime
    (List.mem_of_getElem? hentry)
  refine ⟨hi.service, fun _ => ⟨⟨today, _, hslots, dateTime, List.mem_of_getElem? hentry, _,
    ht.symm⟩, ?_⟩, ?_, ?_⟩
  · have hday : Date.day t = Date.day o.screen.vc.dateDate := by
      rw [← ht]
      exact Date.day_ofMasks (Int.emod_nonneg _ (by decide)) (Int.emod_lt_of_pos _ (by decide))
    show ¬ LeapDay t
    rw [LeapDay, hday]
    exact hcalendar.dated (Or.inl (by simpa using hhidden))
  · intro o' ho'
    simp at ho'
  · intro r' hr'
    obtain rfl := Option.some.inj hr'
    exact ⟨henabled, hcalendar.rows row r hr⟩

theorem sound_step {c c' : Client} {e : ClientEvent} (hi : c.Sound catalogue content)
    (h : c.step (content.map (·.document)) e = some c') : c'.Sound catalogue content := by
  cases e with
  | scroll visibleCells =>
      obtain rfl := Option.some.inj h
      exact hi.frame rfl rfl rfl (fun _ => id)
  | editName text =>
      obtain rfl := Option.some.inj h
      exact hi.frame rfl rfl rfl (fun _ => id)
  | editPhone text =>
      obtain rfl := Option.some.inj h
      exact hi.frame rfl rfl rfl (fun _ => id)
  | openCalendar now monthFinish month year => exact sound_openCalendar hi h
  | tapDay row now => exact sound_tapDay hi h
  | nextMonth monthFinish =>
      refine sound_calendar hi ?_ h
      intro o screen ho hscreen
      exact CalendarState.sound_changeMonth (hi.calendar o ho) (Or.inl rfl) hscreen
  | backMonth monthFinish =>
      refine sound_calendar hi ?_ h
      intro o screen ho hscreen
      exact CalendarState.sound_changeMonth (hi.calendar o ho) (Or.inr rfl) hscreen
  | response i seen documents => exact sound_response hi h
  | responseError i =>
      refine sound_calendar hi ?_ h
      intro o screen ho hscreen
      obtain rfl := Option.some.inj hscreen
      exact CalendarState.sound_responseError i (hi.calendar o ho)
  | render row now => exact sound_render hi h
  | tapTime row => exact sound_tapTime hi h
  | back =>
      obtain rfl := Option.some.inj h
      exact hi.frame rfl rfl rfl (fun o ho => by simp at ho)

end Client

namespace ClientsState

/-- Every client has checked what the server has read for it. -/
def Sound (catalogue : Set Service) (s : ClientsState) : Prop :=
  ∀ client c, s.clients client = some c → c.Sound catalogue s.serviceEnrty

variable {catalogue : Set Service}

theorem sound_init {s : ClientsState} (h : visits.init s) : s.Sound catalogue := by
  obtain rfl := h
  intro client c hc
  simp at hc

theorem Sound.append {s : ClientsState} (hi : s.Sound catalogue) (l : List Posted) :
    ({ s with serviceEnrty := s.serviceEnrty ++ l } : ClientsState).Sound catalogue :=
  fun client c hc => (hi client c hc).append l

theorem sound_setClient {s : ClientsState} (hi : s.Sound catalogue) (client : Nat)
    {c? : Option Client} (hc : ∀ c, c? = some c → c.Sound catalogue s.serviceEnrty) :
    (s.setClient client c?).Sound catalogue := by
  intro client' c' hc'
  simp only [setClient] at hc'
  by_cases heq : client' = client
  · subst heq
    rw [Function.update_self] at hc'
    exact hc c' hc'
  · rw [Function.update_of_ne heq] at hc'
    exact hi client' c' hc'

/-- **What a press sends**: nothing if a field is not filled, and else one entry with the date of the
screen. -/
theorem press_cases {s s' : ClientsState} {client : Nat} {documentID : String}
    (h : s.press client documentID = some s') :
    ∃ c, s.clients client = some c ∧
      ((c.screen.filled = false ∧ s' = s.setClient client (some c)) ∨
        (c.screen.filled = true ∧ ∃ entry master,
          c.screen.vc.arrayMaster[c.screen.vc.getIdMasterEntry]? = some master ∧
          entry.idMaster = master.id ∧ entry.dttmEntry = c.screen.vc.dateEntry ∧
          s' = {
            serviceEnrty := s.serviceEnrty ++
              [⟨⟨documentID, saveServiceEntryToFirebase entry⟩, c.screen.vc.service⟩]
            clients := Function.update s.clients client (some { c with
              screen := { c.screen with
                vc := { c.screen.vc with additingNewEntry := true, serviceEntry := entry }
                calls := c.screen.calls ++ [⟨entry, c.screen.returned⟩] } }) })) := by
  simp only [press, Option.bind_eq_bind] at h
  obtain ⟨c, hc, h⟩ := Option.bind_eq_some_iff.mp h
  obtain ⟨c', hc', h⟩ := Option.bind_eq_some_iff.mp h
  obtain ⟨screen, hscreen, rfl⟩ := Option.map_eq_some_iff.mp hc'
  obtain rfl := Option.some.inj h
  simp only [AppointmentState.step] at hscreen
  split_ifs at hscreen
  refine ⟨c, hc, ?_⟩
  rcases AppointmentState.press_cases hscreen with
    ⟨hfilled, rfl⟩ | ⟨hfilled, entry, master, hmaster, -, hdate, hid, rfl⟩
  · exact Or.inl ⟨hfilled, by simp [setClient]⟩
  · refine Or.inr ⟨hfilled, entry, master, hmaster, hid, hdate, ?_⟩
    rw [List.drop_left]
    rfl

/-- **What one step can do**: one client comes, goes or takes a step that writes nothing, or the
event is a press. -/
theorem step_cases {s s' : ClientsState} {e : ClientsEvent} (hi : s.Sound catalogue)
    (hc : e.OffersOnly catalogue) (h : s.step e = some s') :
    (∃ client c?, (∀ c documentID, e ≠ .makeAppointment c documentID) ∧
      (∀ c, c? = some c → c.Sound catalogue s.serviceEnrty) ∧ s' = s.setClient client c?) ∨
    ∃ client documentID, e = .makeAppointment client documentID ∧
      s.press client documentID = some s' := by
  cases e with
  | actionPresentMakeApp client now service masters name numberPhone =>
      simp only [step] at h
      split_ifs at h
      refine Or.inl ⟨client, _, by simp, ?_, (Option.some.inj h).symm⟩
      intro c heq
      obtain rfl := Option.some.inj heq
      exact Client.sound_viewDidLoad hc now masters name numberPhone
  | client client e =>
      simp only [step, Option.bind_eq_bind] at h
      obtain ⟨c, hclient, h⟩ := Option.bind_eq_some_iff.mp h
      obtain ⟨c', hstep, h⟩ := Option.bind_eq_some_iff.mp h
      refine Or.inl ⟨client, _, by simp, ?_, (Option.some.inj h).symm⟩
      intro c'' heq
      obtain rfl := Option.some.inj heq
      exact Client.sound_step (hi client c hclient) hstep
  | makeAppointment client documentID => exact Or.inr ⟨client, documentID, rfl, h⟩
  | exitAction client =>
      simp only [step, Option.bind_eq_bind] at h
      obtain ⟨c, -, h⟩ := Option.bind_eq_some_iff.mp h
      split_ifs at h
      exact Or.inl ⟨client, none, by simp, by simp, (Option.some.inj h).symm⟩

theorem sound_step {s s' : ClientsState} {e : ClientsEvent} (hi : s.Sound catalogue)
    (hc : e.OffersOnly catalogue) (h : s.step e = some s') : s'.Sound catalogue := by
  rcases step_cases hi hc h with ⟨client, c?, -, hsound, rfl⟩ | ⟨client, documentID, -, hpress⟩
  · exact sound_setClient hi client hsound
  · obtain ⟨c, hclient, ⟨-, rfl⟩ | ⟨-, entry, master, -, -, -, rfl⟩⟩ := press_cases hpress
    · refine sound_setClient hi client ?_
      intro c' heq
      obtain rfl := Option.some.inj heq
      exact hi client c hclient
    · -- the collection has one document more, and the screen of the client has its entry
      have happend := hi.append
        [⟨⟨documentID, saveServiceEntryToFirebase entry⟩, c.screen.vc.service⟩]
      refine sound_setClient happend client ?_
      intro c' heq
      obtain rfl := Option.some.inj heq
      exact (happend client c hclient).frame rfl rfl rfl (fun _ => id)

/-- A document is for a start time of its service, a service of the catalogue, on a day that is no
leap day. -/
def OnGrids (catalogue : Set Service) (s : ClientsState) : Prop :=
  ∀ p ∈ s.serviceEnrty, p.service ∈ catalogue ∧
    ∃ t, p.document.dttmEntry = some t ∧ OnGrid p.service t ∧ ¬ LeapDay t

theorem onGrids_step {s s' : ClientsState} {e : ClientsEvent} (hi : s.Sound catalogue)
    (hgrid : s.OnGrids catalogue) (hc : e.OffersOnly catalogue) (h : s.step e = some s') :
    s'.OnGrids catalogue := by
  rcases step_cases hi hc h with ⟨client, c?, -, -, rfl⟩ | ⟨client, documentID, -, hpress⟩
  · exact hgrid
  · obtain ⟨c, hclient, ⟨-, rfl⟩ | ⟨hfilled, entry, master, -, -, hdate, rfl⟩⟩ := press_cases hpress
    · exact hgrid
    · have hsound := hi client c hclient
      have hreceipt : c.screen.vc.dataReceipt.isSome = true := by
        simp only [AppointmentState.filled, Bool.and_eq_true] at hfilled
        exact hfilled.2
      intro p hp
      rcases List.mem_append.mp hp with hp | hp
      · exact hgrid p hp
      · obtain rfl := List.mem_singleton.mp hp
        exact ⟨hsound.service, entry.dttmEntry, rfl, hdate ▸ hsound.date hreceipt⟩

theorem onGrids_of_reach {C : ClientsState → ClientsEvent → Prop}
    (hC : ∀ s e, C s e → e.OffersOnly catalogue) {s : ClientsState} (h : visits.Reach C s) :
    s.Sound catalogue ∧ s.OnGrids catalogue := by
  refine h.invariant (fun s => s.Sound catalogue ∧ s.OnGrids catalogue) ?_ ?_
  · intro s h0
    refine ⟨sound_init h0, ?_⟩
    obtain rfl := h0
    exact fun p hp => absurd hp List.not_mem_nil
  · intro s e s' hi hc hs
    exact ⟨sound_step hi.1 (hC s e hc) hs, onGrids_step hi.1 hi.2 (hC s e hc) hs⟩

end ClientsState

end Flamingo
