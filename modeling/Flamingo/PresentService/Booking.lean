import Flamingo.Lib.Ledger
import Flamingo.PresentService.FreeRows
import Flamingo.PresentService.AppointmentRuns

set_option autoImplicit false

/-! # Many clients book

Any number of clients run the booking flow on one `service_enrty` collection: open the calendar,
tap a day, receive the answer to its query, tap a time, make the appointment. The server answers
a query with the content at one moment between the request and the arrival, and appends the
documents one at a time.

The check against the taken times and the write are two steps of a client, and the steps of other
clients may lie between them. The lemmas of this file say what a client has checked when it
writes: the documents that the server had read for it (`Flow.Sound`).
`PresentService/DoubleBooking.lean` derives from it what the collection can contain. A client taps
one day each time it opens the calendar; in `PresentService/Visits.lean` it has the whole calendar.
-/

namespace Flamingo

/-- A document of `service_enrty` and the service it was booked for. -/
structure Posted where
  document : Document
  service : Service

/-- Where a client is in its booking. From the answer on, `seen` is the number of documents that
were in the collection when the server answered. -/
inductive Flow
  | idle
  | opened (appointment : MakeAppointmentVC) (vc : CelendarVC)
  | asked (appointment : MakeAppointmentVC) (vc : CelendarVC) (query : Query)
  | answered (appointment : MakeAppointmentVC) (vc : CelendarVC) (documents : List Document)
      (seen : Nat)
  | offered (appointment : MakeAppointmentVC) (vc : CelendarVC) (seen : Nat)
  | chosen (appointment : MakeAppointmentVC) (seen : Nat)

structure BookingState where
  serviceEnrty : List Posted
  clients : Nat → Flow

inductive BookingEvent
  | openCalendar (client : Nat) (appointment : MakeAppointmentVC)
      (now monthFinish month year : Int)
  | tapDay (client row : Nat) (now : Int)
  | answer (client : Nat)
  | receive (client : Nat)
  | tapTime (client row : Nat) (now : Int)
  | scroll (client : Nat) (visibleCells : List Nat)
  | makeAppointment (client : Nat) (documentID : String)
  | leave (client : Nat)

/-! ## The steps of a client -/

namespace Flow

/-- The segue to the calendar, from the appointment screen in any state. -/
def openCalendar (appointment : MakeAppointmentVC) (now monthFinish month year : Int) :
    Option Flow := do
  let (service, master) ← appointment.prepare
  let vc ← CelendarVC.viewDidLoad now monthFinish month year service master
  some (.opened appointment vc)

def tapDay (row : Nat) (now : Int) : Flow → Option Flow
  | .opened appointment vc => do
      let count ← vc.numberOfItemsInSection
      if (row : Int) < count ∧ vc.cellForItemAt now row = true then
        match vc.didSelectItemAt row with
        | (vc, some query) => some (.asked appointment vc query)
        | (vc, none) => some (.opened appointment vc)
      else none
  | _ => none

/-- The server reads the collection for the query. -/
def answer (content : List Posted) : Flow → Option Flow
  | .asked appointment vc query =>
      some (.answered appointment vc (query.getDocuments (content.map (·.document)))
        content.length)
  | _ => none

def receive : Flow → Option Flow
  | .answered appointment vc documents seen =>
      match vc.receiveTimes documents with
      | (vc, true) => some (.offered appointment vc seen)
      | (_, false) => none
  | _ => none

/-- A tap on a row that is rendered enabled, and the unwind to the appointment screen. -/
def tapTime (row : Nat) (now : Int) : Flow → Option Flow
  | .offered appointment vc seen => do
      let (vc, cell) ← vc.cellForRowAt now row
      if cell.isUserInteractionEnabled then
        let source ← vc.didSelectRowAt row
        some (.chosen (appointment.unwindToMakeAppointmentVC source) seen)
      else none
  | _ => none

def scroll (visibleCells : List Nat) : Flow → Option Flow
  | .chosen appointment seen => some (.chosen { appointment with visibleCells } seen)
  | _ => none

end Flow

namespace BookingState

/-- The button `makeAppointment`. A press with a field missing sends nothing and is no step. -/
def press (s : BookingState) (client : Nat) (documentID : String) : Option BookingState :=
  match s.clients client with
  | .chosen appointment _ => do
      let (_, entry) ← appointment.makeAppointment
      let entry ← entry
      some {
        serviceEnrty := s.serviceEnrty ++
          [⟨⟨documentID, saveServiceEntryToFirebase entry⟩, appointment.service⟩]
        clients := Function.update s.clients client .idle }
  | _ => none

/-- A step of one client that writes nothing. -/
def goTo (s : BookingState) (client : Nat) (flow : Option Flow) : Option BookingState :=
  flow.map (fun flow => { s with clients := Function.update s.clients client flow })

def step (s : BookingState) : BookingEvent → Option BookingState
  | .openCalendar client appointment now monthFinish month year =>
      s.goTo client (Flow.openCalendar appointment now monthFinish month year)
  | .tapDay client row now => s.goTo client ((s.clients client).tapDay row now)
  | .answer client => s.goTo client ((s.clients client).answer s.serviceEnrty)
  | .receive client => s.goTo client (s.clients client).receive
  | .tapTime client row now => s.goTo client ((s.clients client).tapTime row now)
  | .scroll client visibleCells => s.goTo client ((s.clients client).scroll visibleCells)
  | .makeAppointment client documentID => s.press client documentID
  | .leave client => s.goTo client (some .idle)

end BookingState

/-- Any number of clients on a collection with the documents `start`. -/
def bookingFrom (start : List Posted) : EventMachine BookingState BookingEvent where
  init s := s = ⟨start, fun _ => .idle⟩
  step := BookingState.step

/-! ## What a client has checked -/

/-- `data["idMaster"] as? String` and `data["dttmEntry"] as? Timestamp` -/
def Document.idMaster (d : Document) : Option String := d.data.string? "idMaster"

/-- The id of the chosen master and the chosen date. -/
def MakeAppointmentVC.slot (vc : MakeAppointmentVC) : Option (String × Int) :=
  vc.arrayMaster[vc.getIdMasterEntry]?.map (fun master => (master.id, vc.dateEntry))

/-- A start time of the service on some day. -/
def OnGrid (service : Service) (t : Int) : Prop :=
  ∃ today slots, createDataEntry today service.timeService = some slots ∧
    ∃ dateTime ∈ slots, ∃ day, t = Date.ofMasks day (Date.time dateTime)

/-- The service of an appointment is taken from a catalogue. -/
def BookingEvent.OffersOnly (catalogue : Set Service) : BookingEvent → Prop
  | .openCalendar _ appointment _ _ _ _ => appointment.service ∈ catalogue
  | _ => True

theorem BookingEvent.offersOnly_univ (e : BookingEvent) : e.OffersOnly Set.univ := by
  cases e with
  | openCalendar _ appointment _ _ _ _ => exact Set.mem_univ appointment.service
  | tapDay _ _ _ | answer _ | receive _ | tapTime _ _ _ | scroll _ _ | makeAppointment _ _
  | leave _ => trivial

namespace Flow

variable {catalogue : Set Service} {content : List Posted}

/-- The service of the appointment is one of the catalogue, and the calendar lists its start
times. -/
def Lists (catalogue : Set Service) (appointment : MakeAppointmentVC) (vc : CelendarVC) : Prop :=
  appointment.service ∈ catalogue ∧ vc.service = appointment.service ∧
    ∃ today, createDataEntry today vc.service.timeService = some vc.arrayDateSetviceEntry

/-- What holds of a client at each stage, for the content of the collection. -/
def Sound (catalogue : Set Service) (content : List Posted) : Flow → Prop
  | .idle => True
  | .opened appointment vc => Lists catalogue appointment vc
  | .asked appointment vc query =>
      Lists catalogue appointment vc ∧ Date.time vc.dateDate = 0 ∧
        query = vc.getTimesIsGreaterThan vc.dateDate
  | .answered appointment vc documents seen =>
      Lists catalogue appointment vc ∧ Date.time vc.dateDate = 0 ∧ seen ≤ content.length ∧
        documents = (vc.getTimesIsGreaterThan vc.dateDate).getDocuments
          ((content.take seen).map (·.document))
  | .offered appointment vc seen =>
      Lists catalogue appointment vc ∧ Date.time vc.dateDate = 0 ∧ seen ≤ content.length ∧
        ∀ p ∈ content.take seen, ∀ t, p.document.dttmEntry = some t → vc.dateDate < t →
          t ∈ vc.arrayTimesBlock
  | .chosen appointment seen =>
      appointment.service ∈ catalogue ∧ OnGrid appointment.service appointment.dateEntry ∧
        seen ≤ content.length ∧ ∀ p ∈ content.take seen,
          p.document.dttmEntry ≠ some appointment.dateEntry

/-- What the server has read for a client stays a prefix of the collection. -/
theorem Sound.append {flow : Flow} (h : flow.Sound catalogue content) (p : Posted) :
    flow.Sound catalogue (content ++ [p]) := by
  cases flow with
  | idle => trivial
  | opened appointment vc => exact h
  | asked appointment vc query => exact h
  | answered appointment vc documents seen =>
      obtain ⟨hlists, hday, hseen, hdocs⟩ := h
      refine ⟨hlists, hday, by simp; omega, ?_⟩
      rw [List.take_append_of_le_length hseen]
      exact hdocs
  | offered appointment vc seen =>
      obtain ⟨hlists, hday, hseen, hblocked⟩ := h
      refine ⟨hlists, hday, by simp; omega, ?_⟩
      rw [List.take_append_of_le_length hseen]
      exact hblocked
  | chosen appointment seen =>
      obtain ⟨hservice, hgrid, hseen, hfree⟩ := h
      refine ⟨hservice, hgrid, by simp; omega, ?_⟩
      rw [List.take_append_of_le_length hseen]
      exact hfree

theorem sound_openCalendar {appointment : MakeAppointmentVC} {now monthFinish month year : Int}
    {flow : Flow} (hc : appointment.service ∈ catalogue)
    (h : openCalendar appointment now monthFinish month year = some flow) :
    flow.Sound catalogue content := by
  simp only [openCalendar, Option.bind_eq_bind] at h
  obtain ⟨⟨service, master⟩, hprepare, hrest⟩ := Option.bind_eq_some_iff.mp h
  obtain ⟨vc, hload, hflow⟩ := Option.bind_eq_some_iff.mp hrest
  obtain ⟨m, -, heq⟩ := Option.map_eq_some_iff.mp hprepare
  obtain ⟨rfl, rfl⟩ := Prod.mk.inj heq
  obtain ⟨hservice, -, -, -, hslots⟩ := CelendarVC.viewDidLoad_spec hload
  obtain rfl := Option.some.inj hflow
  exact ⟨hc, hservice, now, by rw [hservice]; exact hslots⟩

theorem sound_tapDay {row : Nat} {now : Int} {flow flow' : Flow}
    (hi : flow.Sound catalogue content) (h : flow.tapDay row now = some flow') :
    flow'.Sound catalogue content := by
  cases flow with
  | opened appointment vc =>
      simp only [tapDay, Option.bind_eq_bind] at h
      obtain ⟨count, -, hrest⟩ := Option.bind_eq_some_iff.mp h
      split_ifs at hrest
      cases hdate : vc.dateOfCell row with
      | none =>
          rw [CelendarVC.didSelectItemAt_of_none hdate] at hrest
          obtain rfl := Option.some.inj hrest
          exact hi
      | some d =>
          rw [CelendarVC.didSelectItemAt_of_some hdate] at hrest
          obtain rfl := Option.some.inj hrest
          exact ⟨hi, CalendarState.time_of_dateOfCell hdate, rfl⟩
  | idle | asked _ _ _ | answered _ _ _ _ | offered _ _ _ | chosen _ _ => cases h

theorem sound_answer {flow flow' : Flow} (hi : flow.Sound catalogue content)
    (h : flow.answer content = some flow') : flow'.Sound catalogue content := by
  cases flow with
  | asked appointment vc query =>
      obtain ⟨hlists, hday, rfl⟩ := hi
      obtain rfl := Option.some.inj h
      exact ⟨hlists, hday, Nat.le_refl _, by rw [List.take_length]⟩
  | idle | opened _ _ | answered _ _ _ _ | offered _ _ _ | chosen _ _ => cases h

theorem timestamps_of_getDocuments {vc : CelendarVC} {date : Int} {documents : List Document} :
    ∀ d ∈ (vc.getTimesIsGreaterThan date).getDocuments documents,
      ∃ t, d.data.timestamp? "dttmEntry" = some t := by
  intro d hd
  obtain ⟨-, t, ht, -⟩ := CelendarVC.mem_getDocuments_iff.mp hd
  exact ⟨t, ht⟩

/-- The answer to the query is handled to its end: its times are blocked and the table is shown. -/
theorem receive_getDocuments (appointment : MakeAppointmentVC) (vc : CelendarVC) (date : Int)
    (documents : List Document) (seen : Nat) :
    (Flow.answered appointment vc ((vc.getTimesIsGreaterThan date).getDocuments documents)
        seen).receive
      = some (.offered appointment { vc with
          arrayTimesBlock := vc.arrayTimesBlock ++
            ((vc.getTimesIsGreaterThan date).getDocuments documents).filterMap (·.dttmEntry)
          tableViewTimeHidden := false, activeIndTimeHidden := true } seen) := by
  simp only [receive, CelendarVC.receiveTimes_eq,
    CelendarVC.appendTimes_of_timestamps timestamps_of_getDocuments, if_true]
  rfl

/-- The answer blocks every time after the selected midnight that the server has read. -/
theorem sound_receive {flow flow' : Flow} (hi : flow.Sound catalogue content)
    (h : flow.receive = some flow') : flow'.Sound catalogue content := by
  cases flow with
  | answered appointment vc documents seen =>
      obtain ⟨hlists, hday, hseen, rfl⟩ := hi
      rw [receive_getDocuments] at h
      obtain rfl := Option.some.inj h
      refine ⟨hlists, hday, hseen, ?_⟩
      intro p hp t ht hlt
      apply List.mem_append_right
      refine List.mem_filterMap.mpr ⟨p.document, ?_, ht⟩
      exact CelendarVC.mem_getDocuments_iff.mpr ⟨List.mem_map_of_mem hp, t, ht, hlt⟩
  | idle | opened _ _ | asked _ _ _ | offered _ _ _ | chosen _ _ => cases h

/-- A time that can be tapped is a start time of the service that no document has which the server
has read. -/
theorem sound_tapTime {row : Nat} {now : Int} {flow flow' : Flow}
    (hi : flow.Sound catalogue content) (h : flow.tapTime row now = some flow') :
    flow'.Sound catalogue content := by
  cases flow with
  | offered appointment vc seen =>
      obtain ⟨⟨hcatalogue, hservice, today, hslots⟩, hday, hseen, hblocked⟩ := hi
      simp only [tapTime, Option.bind_eq_bind] at h
      obtain ⟨⟨rendered, cell⟩, hcell, hrest⟩ := Option.bind_eq_some_iff.mp h
      obtain ⟨dateTime, t, hrow, ht, rfl, henabled, -⟩ := CelendarVC.cellForRowAt_spec hcell
      simp only at hrest
      split_ifs at hrest with hcan
      obtain ⟨source, hsource, hflow⟩ := Option.bind_eq_some_iff.mp hrest
      obtain ⟨t', hdate, rfl⟩ := CelendarVC.didSelectRowAt_spec hsource
      obtain rfl : t' = t := by
        simp only [CelendarVC.rowDate, hrow, Option.map_some, Option.some.injEq] at hdate
        rw [ht, hdate]
      obtain rfl := Option.some.inj hflow
      rw [MakeAppointmentVC.unwind_of_some rfl]
      have hmem : dateTime ∈ vc.arrayDateSetviceEntry := List.mem_of_getElem? hrow
      refine ⟨hcatalogue, ⟨today, _, hservice ▸ hslots, dateTime, hmem, _, ht⟩, hseen, ?_⟩
      intro p hp heq
      apply (henabled.mp hcan).2
      apply hblocked p hp t' heq
      -- the time of the row lies after the midnight that was asked for
      obtain ⟨hopen, -, -⟩ := time_of_mem_createDataEntry hslots dateTime hmem
      have hmidnight := Date.ofMasks_day_time vc.dateDate
      rw [hday] at hmidnight
      simp only [Date.ofMasks] at hmidnight ht
      omega
  | idle | opened _ _ | asked _ _ _ | answered _ _ _ _ | chosen _ _ => cases h

theorem sound_scroll {visibleCells : List Nat} {flow flow' : Flow}
    (hi : flow.Sound catalogue content) (h : flow.scroll visibleCells = some flow') :
    flow'.Sound catalogue content := by
  cases flow with
  | chosen appointment seen =>
      obtain rfl := Option.some.inj h
      exact hi
  | idle | opened _ _ | asked _ _ _ | answered _ _ _ _ | offered _ _ _ => cases h

end Flow

namespace BookingState

/-- Every client has checked what the server has read for it. -/
def Sound (catalogue : Set Service) (s : BookingState) : Prop :=
  ∀ client, (s.clients client).Sound catalogue s.serviceEnrty

variable {catalogue : Set Service}

theorem sound_init {start : List Posted} {s : BookingState} (h : (bookingFrom start).init s) :
    s.Sound catalogue := by
  obtain rfl := h
  exact fun _ => trivial

/-- What a press sends: an entry for the chosen master and the chosen date. -/
theorem press_cases {s s' : BookingState} {client : Nat} {documentID : String}
    (h : s.press client documentID = some s') :
    ∃ appointment seen entry, s.clients client = .chosen appointment seen ∧
      appointment.slot = some (entry.idMaster, entry.dttmEntry) ∧
      entry.dttmEntry = appointment.dateEntry ∧
      s' = {
        serviceEnrty := s.serviceEnrty ++
          [⟨⟨documentID, saveServiceEntryToFirebase entry⟩, appointment.service⟩]
        clients := Function.update s.clients client .idle } := by
  unfold press at h
  split at h
  · rename_i appointment seen hflow
    simp only [Option.bind_eq_bind] at h
    obtain ⟨⟨vc, entry⟩, hmake, hrest⟩ := Option.bind_eq_some_iff.mp h
    obtain ⟨entry, rfl, hs'⟩ := Option.bind_eq_some_iff.mp hrest
    obtain ⟨-, -, hdate, ⟨master, hmaster, hid⟩, -⟩ := MakeAppointmentVC.makeAppointment_spec hmake
    refine ⟨appointment, seen, entry, hflow, ?_, hdate, (Option.some.inj hs').symm⟩
    rw [MakeAppointmentVC.slot, hmaster, Option.map_some, hid, hdate]
  · cases h

theorem goTo_cases {s s' : BookingState} {client : Nat} {flow : Option Flow}
    (h : s.goTo client flow = some s') : ∃ flow', flow = some flow' ∧
      s' = { s with clients := Function.update s.clients client flow' } := by
  obtain ⟨flow', hflow, rfl⟩ := Option.map_eq_some_iff.mp h
  exact ⟨flow', hflow, rfl⟩

/-- **What one step can do**: one client takes a step that writes nothing and is sound, or the
event is a press. -/
theorem step_cases {s s' : BookingState} {e : BookingEvent} (hi : s.Sound catalogue)
    (hc : e.OffersOnly catalogue) (h : s.step e = some s') :
    (∃ client flow, (∀ c documentID, e ≠ .makeAppointment c documentID) ∧
      flow.Sound catalogue s.serviceEnrty ∧
      s' = { s with clients := Function.update s.clients client flow }) ∨
    ∃ client documentID, e = .makeAppointment client documentID ∧
      s.press client documentID = some s' := by
  have key : ∀ client flow, (∀ c documentID, e ≠ .makeAppointment c documentID) →
      s.goTo client flow = some s' → (∀ flow', flow = some flow' → flow'.Sound catalogue s.serviceEnrty) →
      ∃ client flow, (∀ c documentID, e ≠ .makeAppointment c documentID) ∧
        flow.Sound catalogue s.serviceEnrty ∧
        s' = { s with clients := Function.update s.clients client flow } := by
    intro client flow he hgo hsound
    obtain ⟨flow', hflow, rfl⟩ := goTo_cases hgo
    exact ⟨client, flow', he, hsound flow' hflow, rfl⟩
  cases e with
  | openCalendar client appointment now monthFinish month year =>
      exact Or.inl (key client _ (by simp) h (fun _ => Flow.sound_openCalendar hc))
  | tapDay client row now =>
      exact Or.inl (key client _ (by simp) h (fun _ => Flow.sound_tapDay (hi client)))
  | answer client =>
      exact Or.inl (key client _ (by simp) h (fun _ => Flow.sound_answer (hi client)))
  | receive client =>
      exact Or.inl (key client _ (by simp) h (fun _ => Flow.sound_receive (hi client)))
  | tapTime client row now =>
      exact Or.inl (key client _ (by simp) h (fun _ => Flow.sound_tapTime (hi client)))
  | scroll client visibleCells =>
      exact Or.inl (key client _ (by simp) h (fun _ => Flow.sound_scroll (hi client)))
  | makeAppointment client documentID => exact Or.inr ⟨client, documentID, rfl, h⟩
  | leave client =>
      refine Or.inl (key client _ (by simp) h ?_)
      intro flow hflow
      obtain rfl := Option.some.inj hflow
      trivial

theorem sound_step {s s' : BookingState} {e : BookingEvent} (hi : s.Sound catalogue)
    (hc : e.OffersOnly catalogue) (h : s.step e = some s') : s'.Sound catalogue := by
  have hupdate : ∀ client flow, flow.Sound catalogue s.serviceEnrty →
      ∀ c, (Function.update s.clients client flow c).Sound catalogue s.serviceEnrty := by
    intro client flow hflow
    rw [Function.forall_update_iff s.clients (fun _ flow => flow.Sound catalogue s.serviceEnrty)]
    exact ⟨hflow, fun c _ => hi c⟩
  rcases step_cases hi hc h with ⟨client, flow, -, hflow, rfl⟩ | ⟨client, documentID, -, hpress⟩
  · exact hupdate client flow hflow
  · obtain ⟨appointment, seen, entry, -, -, -, rfl⟩ := press_cases hpress
    exact fun c => (hupdate client .idle trivial c).append _

end BookingState

end Flamingo
