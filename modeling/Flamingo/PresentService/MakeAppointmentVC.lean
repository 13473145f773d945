import Flamingo.PresentService.CelendarVC

set_option autoImplicit false

/-! # The appointment screen

`MakeAppointmentVC` keeps the service, the masters with a placeholder in front, the chosen date
and the texts of its fields, and writes a `service_enrty` document. The chosen master is not a
field of the screen: it is read from the rows of the master table that are visible, once when
the calendar opens and once more when the appointment is made.
-/

namespace Flamingo

/-- `FirebaseManager.saveServiceEntryToFirebase`: the fields of the document. -/
def saveServiceEntryToFirebase (serviceEnrty : ServiceEntry) : DocData :=
  [("id", .string serviceEnrty.id),
    ("serviceName", .string serviceEnrty.serviceName),
    ("nameClient", .string serviceEnrty.nameClient),
    ("serviceEnrty", .string serviceEnrty.numberPhoneClient),
    ("dttmEntry", .ofSeconds serviceEnrty.dttmEntry),
    ("idMaster", .string serviceEnrty.idMaster),
    ("serviceIdDocument", .string serviceEnrty.serviceIdDocument),
    ("price", .string serviceEnrty.price)]

structure MakeAppointmentVC where
  service : Service
  arrayMaster : List Master
  serviceEntry : ServiceEntry
  cellDateDateTime : Option Int
  additingNewEntry : Bool
  dateEntry : Int
  /-- the texts of the name and the phone field -/
  nameClient : String
  phoneClient : String
  /-- the date that the field `dataReceipt` shows; its text is empty at first -/
  dataReceipt : Option Int
  /-- the rows of `tableView.visibleCells` -/
  visibleCells : List Nat

namespace MakeAppointmentVC

/-- `viewDidLoad`, with the service and the masters that `prepare` has set and the texts of the
stored person: a placeholder is put in front of the masters. -/
def viewDidLoad (now : Int) (service : Service) (masters : List Master)
    (name numberPhone : String) : MakeAppointmentVC where
  service := service
  arrayMaster := {} :: masters
  serviceEntry := { dttmEntry := now }
  cellDateDateTime := none
  additingNewEntry := false
  dateEntry := now
  nameClient := name
  phoneClient := numberPhone
  dataReceipt := none
  visibleCells := [0]

/-- The row of the only visible cell, and row `0` when there is none or more than one. -/
def getIdMasterEntry (vc : MakeAppointmentVC) : Nat :=
  match vc.visibleCells with
  | [row] => row
  | _ => 0

/-- `prepare(for:)` of the segue to the calendar: the service and the master handed to it. -/
def prepare (vc : MakeAppointmentVC) : Option (Service × Master) :=
  vc.arrayMaster[vc.getIdMasterEntry]?.map (fun master => (vc.service, master))

def unwindToMakeAppointmentVC (vc : MakeAppointmentVC) (source : CelendarVC) :
    MakeAppointmentVC :=
  let vc := { vc with cellDateDateTime := source.cellDateDateTime }
  match vc.cellDateDateTime with
  | some timeServiceEntry =>
      { vc with dateEntry := timeServiceEntry, dataReceipt := some timeServiceEntry }
  | none => vc

def checkNameClient (vc : MakeAppointmentVC) : Bool := !vc.nameClient.isEmpty

def checkPhoneClient (vc : MakeAppointmentVC) : Bool :=
  !(vc.phoneClient.isEmpty || vc.phoneClient.length != 17)

def checkDataEntry (vc : MakeAppointmentVC) : Bool := vc.dataReceipt.isSome

/-- `none` when the row of the master is out of range. -/
def collectServiceEntry (vc : MakeAppointmentVC) : Option MakeAppointmentVC := do
  let indexArrayMaster := vc.getIdMasterEntry
  let master ← vc.arrayMaster[indexArrayMaster]?
  some { vc with serviceEntry := { vc.serviceEntry with
    serviceName := vc.service.nameService
    serviceIdDocument := vc.service.id
    nameClient := vc.nameClient
    numberPhoneClient := vc.phoneClient
    idMaster := master.id
    dttmEntry := vc.dateEntry
    price := vc.service.placeService } }

/-- The button `makeAppointment`: the screen and the entry that is sent to Firestore, if the
fields are filled. -/
def makeAppointment (vc : MakeAppointmentVC) : Option (MakeAppointmentVC × Option ServiceEntry) :=
  if vc.checkNameClient && vc.checkPhoneClient && vc.checkDataEntry then do
    let vc ← vc.collectServiceEntry
    some ({ vc with additingNewEntry := true }, some vc.serviceEntry)
  else some (vc, none)

/-! ## What the operations do -/

/-- The screen takes over the date-time that the calendar has computed. -/
theorem unwind_of_some {vc : MakeAppointmentVC} {source : CelendarVC} {t : Int}
    (h : source.cellDateDateTime = some t) :
    vc.unwindToMakeAppointmentVC source
      = { vc with cellDateDateTime := some t, dateEntry := t, dataReceipt := some t } := by
  simp [unwindToMakeAppointmentVC, h]

theorem makeAppointment_isSome {vc : MakeAppointmentVC}
    (hrow : vc.getIdMasterEntry < vc.arrayMaster.length) : vc.makeAppointment.isSome := by
  unfold makeAppointment collectServiceEntry
  split_ifs with hfilled
  · simp [List.getElem?_eq_getElem hrow]
  · rfl

/-- **What is sent**: the service of the screen, the last date taken over and the master of the
row that is visible at that moment. -/
theorem makeAppointment_spec {vc vc' : MakeAppointmentVC} {entry : ServiceEntry}
    (h : vc.makeAppointment = some (vc', some entry)) :
    (vc.checkNameClient && vc.checkPhoneClient && vc.checkDataEntry) = true ∧
      entry.serviceIdDocument = vc.service.id ∧ entry.dttmEntry = vc.dateEntry ∧
      (∃ master, vc.arrayMaster[vc.getIdMasterEntry]? = some master ∧
        entry.idMaster = master.id) ∧
      vc' = { vc with additingNewEntry := true, serviceEntry := entry } := by
  unfold makeAppointment at h
  split_ifs at h with hfilled
  · simp only [Option.bind_eq_bind] at h
    obtain ⟨collected, hcollect, h⟩ := Option.bind_eq_some_iff.mp h
    simp only [collectServiceEntry, Option.bind_eq_bind] at hcollect
    obtain ⟨master, hmaster, hcollect⟩ := Option.bind_eq_some_iff.mp hcollect
    obtain rfl := Option.some.inj hcollect
    simp only [Option.some.injEq, Prod.mk.injEq] at h
    obtain ⟨rfl, rfl⟩ := h
    exact ⟨hfilled, rfl, rfl, ⟨master, hmaster, rfl⟩, rfl⟩
  · simp at h

/-- Nothing is sent when a field is not filled, and only then. -/
theorem makeAppointment_of_none {vc vc' : MakeAppointmentVC}
    (h : vc.makeAppointment = some (vc', none)) :
    (vc.checkNameClient && vc.checkPhoneClient && vc.checkDataEntry) = false ∧ vc' = vc := by
  unfold makeAppointment at h
  split_ifs at h with hfilled
  · simp only [Option.bind_eq_bind] at h
    obtain ⟨collected, -, h⟩ := Option.bind_eq_some_iff.mp h
    simp at h
  · simp only [Option.some.injEq, Prod.mk.injEq, and_true] at h
    exact ⟨by simpa using hfilled, h.symm⟩

end MakeAppointmentVC

end Flamingo
