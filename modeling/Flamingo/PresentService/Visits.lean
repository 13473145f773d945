import Flamingo.PresentService.Booking

set_option autoImplicit false

/-! # Many clients at their screens

The clients of `PresentService/Booking.lean` tap one day each. Here every client is at an
appointment screen of its own (`PresentService/AppointmentRuns.lean`), from which it opens the
calendar any number of times: it taps any number of days, changes the month, and has any number of
queries in flight, whose answers arrive in any order. All clients share one `service_enrty`
collection. The server answers a query with the content at one moment between the request and the
arrival, the documents in any order, and appends the documents one at a time.

A row of the time table is compared with the times of the answers that were handled before it was
rendered, and it is booked later. The bookings are made one after another if each of them books a
row that was rendered after an answer about its time which the server gave when it had the document
of the booking before (`ClientsState.Serial`).
-/

namespace Flamingo

/-- An answer that a screen has handled: its query, and the number of documents that were in the
collection when the server answered. -/
structure Answer where
  query : Query
  seen : Nat

/-- A rendered row and the answers that had been handled when it was rendered. -/
structure CheckedRow where
  row : TimeRow
  answers : List Answer

/-- A client at its appointment screen. -/
structure Client where
  screen : AppointmentState
  /-- the answers that the open calendar has handled, and those it had when it rendered a row -/
  answers : List Answer
  rendered : Nat → List Answer
  /-- the row that was tapped last -/
  tapped : Option CheckedRow

structure ClientsState where
  serviceEnrty : List Posted
  clients : Nat → Option Client

inductive ClientEvent
  | scroll (visibleCells : List Nat)
  | editName (text : String)
  | editPhone (text : String)
  | openCalendar (now monthFinish month year : Int)
  | tapDay (row : Nat) (now : Int)
  | nextMonth (monthFinish : Int)
  | backMonth (monthFinish : Int)
  | response (i seen : Nat) (documents : List Document)
  | responseError (i : Nat)
  | render (row : Nat) (now : Int)
  | tapTime (row : Nat)
  | back

inductive ClientsEvent
  | actionPresentMakeApp (client : Nat) (now : Int) (service : Service) (masters : List Master)
      (name numberPhone : String)
  | client (client : Nat) (e : ClientEvent)
  | makeAppointment (client : Nat) (documentID : String)
  | exitAction (client : Nat)

/-! ## The steps of a client -/

namespace Client

def viewDidLoad (now : Int) (service : Service) (masters : List Master)
    (name numberPhone : String) : Client where
  screen := ⟨MakeAppointmentVC.viewDidLoad now service masters name numberPhone, none, none, []⟩
  answers := []
  rendered := fun _ => []
  tapped := none

/-- An event of the appointment screen or of its open calendar. -/
def onScreen (c : Client) (e : AppointmentEvent) : Option Client :=
  (c.screen.step e).map (fun screen => { c with screen })

def openCalendar (c : Client) (content : List Document) (now monthFinish month year : Int) :
    Option Client :=
  (c.onScreen (.openCalendar now monthFinish month year content)).map
    (fun c => { c with answers := [], rendered := fun _ => [] })

/-- A day is tapped: its query is issued on the content of this moment. -/
def tapDay (c : Client) (content : List Document) (row : Nat) (now : Int) : Option Client :=
  (c.onScreen (.calendar (.write content))).bind (·.onScreen (.calendar (.tapDay row now)))

/-- The answer to a query in flight: what the query finds among the first `seen` documents, which
are at least those that were there when it was issued. -/
def response (c : Client) (content : List Document) (i seen : Nat) (documents : List Document) :
    Option Client := do
  let calendar ← c.screen.open?
  let p ← calendar.screen.pending[i]?
  if p.issued.length ≤ seen ∧ seen ≤ content.length ∧
      documents.Perm (p.query.getDocuments (content.take seen)) then
    let c ← c.onScreen (.calendar (.response i documents))
    some { c with answers := c.answers ++ [⟨p.query, seen⟩] }
  else none

def render (c : Client) (row : Nat) (now : Int) : Option Client :=
  (c.onScreen (.calendar (.render row now))).map
    (fun c => { c with rendered := Function.update c.rendered row c.answers })

/-- A tap on a time row, and the unwind to the appointment screen. -/
def tapTime (c : Client) (row : Nat) : Option Client := do
  let calendar ← c.screen.open?
  let r ← calendar.screen.rows row
  let c ← c.onScreen (.tapTime row)
  some { c with tapped := some ⟨r, c.rendered row⟩ }

def step (content : List Document) (c : Client) : ClientEvent → Option Client
  | .scroll visibleCells => c.onScreen (.scroll visibleCells)
  | .editName text => c.onScreen (.editName text)
  | .editPhone text => c.onScreen (.editPhone text)
  | .openCalendar now monthFinish month year => c.openCalendar content now monthFinish month year
  | .tapDay row now => c.tapDay content row now
  | .nextMonth monthFinish => c.onScreen (.calendar (.nextMonth monthFinish))
  | .backMonth monthFinish => c.onScreen (.calendar (.backMonth monthFinish))
  | .response i seen documents => c.response content i seen documents
  | .responseError i => c.onScreen (.calendar (.responseError i))
  | .render row now => c.render row now
  | .tapTime row => c.tapTime row
  | .back => c.onScreen .back

end Client

namespace ClientsState

def setClient (s : ClientsState) (client : Nat) (c : Option Client) : ClientsState :=
  { s with clients := Function.update s.clients client c }

@[simp] theorem clients_setClient (s : ClientsState) (client : Nat) (c : Option Client) :
    (s.setClient client c).clients client = c :=
  Function.update_self _ _ _

/-- The button `makeAppointment`: a document for every call of `saveServiceEntryToFirebase`. -/
def press (s : ClientsState) (client : Nat) (documentID : String) : Option ClientsState := do
  let c ← s.clients client
  let c' ← c.onScreen .makeAppointment
  let calls := c'.screen.calls.drop c.screen.calls.length
  some { s.setClient client (some c') with
    serviceEnrty := s.serviceEnrty ++ calls.map (fun call =>
      ⟨⟨documentID, saveServiceEntryToFirebase call.entry⟩, c.screen.vc.service⟩) }

def step (s : ClientsState) : ClientsEvent → Option ClientsState
  | .actionPresentMakeApp client now service masters name numberPhone =>
      if (s.clients client).isSome then none
      else some (s.setClient client (some (Client.viewDidLoad now service masters name numberPhone)))
  | .client client e => do
      let c ← s.clients client
      let c ← c.step (s.serviceEnrty.map (·.document)) e
      some (s.setClient client (some c))
  | .makeAppointment client documentID => s.press client documentID
  | .exitAction client => do
      let c ← s.clients client
      if c.screen.open?.isSome then none else some (s.setClient client none)

end ClientsState

/-- Any number of clients on an empty collection. -/
def visits : EventMachine ClientsState ClientsEvent where
  init s := s = ⟨[], fun _ => none⟩
  step := ClientsState.step

/-- The service of an appointment is taken from a catalogue. -/
def ClientsEvent.OffersOnly (catalogue : Set Service) : ClientsEvent → Prop
  | .actionPresentMakeApp _ _ service _ _ _ => service ∈ catalogue
  | .client _ _ | .makeAppointment _ _ | .exitAction _ => True

instance (catalogue : Set Service) [DecidablePred (· ∈ catalogue)] (e : ClientsEvent) :
    Decidable (e.OffersOnly catalogue) :=
  match e with
  | .actionPresentMakeApp _ _ service _ _ _ => inferInstanceAs (Decidable (service ∈ catalogue))
  | .client _ _ | .makeAppointment _ _ | .exitAction _ => inferInstanceAs (Decidable True)

theorem ClientsEvent.offersOnly_univ (e : ClientsEvent) : e.OffersOnly Set.univ := by
  cases e with
  | actionPresentMakeApp _ _ service _ _ _ => exact Set.mem_univ service
  | client _ _ | makeAppointment _ _ | exitAction _ => trivial

/-! ## Bookings one after another -/

/-- The time after which a query asks for documents. -/
def Query.lowerBound (q : Query) : Option Int :=
  q.filters.findSome? (fun
    | .isGreaterThan _ date => some date
    | .isEqualTo _ _ => none)

/-- The answer is about the documents for this time. -/
def Answer.About (a : Answer) (t : Int) : Prop := ∃ date ∈ a.query.lowerBound, date < t

instance (a : Answer) (t : Int) : Decidable (a.About t) :=
  inferInstanceAs (Decidable (∃ date ∈ a.query.lowerBound, date < t))

namespace Client

/-- The row that was tapped last was rendered for the date that the screen has, after an answer
about this date that the server gave when it had at least `count` documents. -/
def Checked (c : Client) (count : Nat) : Prop :=
  ∃ r ∈ c.tapped, r.row.tested = c.screen.vc.dateEntry ∧
    ∃ a ∈ r.answers, count ≤ a.seen ∧ a.About c.screen.vc.dateEntry

instance (c : Client) (count : Nat) : Decidable (c.Checked count) :=
  inferInstanceAs (Decidable (∃ r ∈ c.tapped, r.row.tested = c.screen.vc.dateEntry ∧
    ∃ a ∈ r.answers, count ≤ a.seen ∧ a.About c.screen.vc.dateEntry))

end Client

namespace ClientsState

/-- When a client books, the answer that its row was checked against was given after the last
document had been added. -/
def Serial (s : ClientsState) : ClientsEvent → Prop
  | .makeAppointment client _ => ∀ c ∈ s.clients client, c.screen.filled = true →
      c.Checked s.serviceEnrty.length
  | .actionPresentMakeApp _ _ _ _ _ _ | .client _ _ | .exitAction _ => True

/-- The bookings are made one after another, and of services of the catalogue only. -/
def SerialOf (catalogue : Set Service) (s : ClientsState) (e : ClientsEvent) : Prop :=
  s.Serial e ∧ e.OffersOnly catalogue

instance (s : ClientsState) (e : ClientsEvent) : Decidable (s.Serial e) :=
  match e with
  | .makeAppointment client _ => inferInstanceAs (Decidable (∀ c ∈ s.clients client,
      c.screen.filled = true → c.Checked s.serviceEnrty.length))
  | .actionPresentMakeApp _ _ _ _ _ _ | .client _ _ | .exitAction _ =>
      inferInstanceAs (Decidable True)

instance (catalogue : Set Service) [DecidablePred (· ∈ catalogue)] (s : ClientsState)
    (e : ClientsEvent) : Decidable (s.SerialOf catalogue e) :=
  inferInstanceAs (Decidable (s.Serial e ∧ e.OffersOnly catalogue))

end ClientsState

end Flamingo
