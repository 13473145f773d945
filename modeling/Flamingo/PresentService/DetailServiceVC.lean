import Flamingo.Lib.Trap
import Flamingo.DBManager.Favorites
import Flamingo.PresentCatalogServicre.SamplePriceListVC
import Flamingo.PresentService.MakeAppointmentVC

set_option autoImplicit false

/-! # The screens of a service

`DetailServiceVC` gets a service from Realm and looks up its masters when it is opened, and hands
both to `MakeAppointmentVC`. From then on the two screens read the objects that they hold, while
the passes over the services and the masters delete objects in the background.

An object that a screen holds is a key of the table of its class; to read a key that is not there
traps.
-/

namespace Flamingo

structure DetailServiceVC where
  service : Nat
  masters : List Nat

/-- The objects of `MakeAppointmentVC`; `none` is the placeholder, which is not in Realm. -/
structure AppointmentObjects where
  service : Nat
  arrayMaster : List (Option Nat)

/-- The two classes with their synchronisations, and the screens that are open. -/
structure ServiceScreens where
  services : SyncState serviceClass
  masters : SyncState masterClass
  detail : Option DetailServiceVC
  appointment : Option AppointmentObjects

/-- `StorageManager.getMasterFromTheDataBase`: the masters of a service. The ids are texts in one normal
form. -/
def getMasterFromTheDataBase (service : Service) (listMasters : Results Master) : Results Master :=
  let idsMaster := Text.components service.idsMasters ','
  listMasters.filter (fun master => idsMaster.contains master.id.toList)

namespace ServiceScreens

def readService (s : ServiceScreens) (key : Nat) : Option Service := s.services.table.read key

def readMaster (s : ServiceScreens) (key : Nat) : Option Master := s.masters.table.read key

end ServiceScreens

/-! ## The detail screen -/

namespace DetailServiceVC

/-- `viewDidLoad`: the masters are looked up, and the fields of the service are shown. -/
def viewDidLoad (s : ServiceScreens) (key : Nat) : Option (DetailServiceVC × Cell) := do
  let service ← s.readService key
  let masters := getMasterFromTheDataBase service s.masters.table.objects
  some (⟨key, masters.map Prod.fst⟩,
    ⟨[service.nameService, service.serviceDescription], service.image⟩)

def cellForItemAt (vc : DetailServiceVC) (s : ServiceScreens) (row : Nat) : Option Cell := do
  let key ← vc.masters[row]?
  let master ← s.readMaster key
  some ⟨[master.name, master.profil], master.image⟩

/-- The service is looked up by its id and the result unwrapped by force, to choose the star that
is shown; `updateFavorites` looks it up once more. -/
def favoritesAction (realm : Realm) (vc : DetailServiceVC) (s : ServiceScreens) :
    Option (ServiceScreens × Bool) := do
  let service ← s.readService vc.service
  let first ← firstFavorite realm s.services.table.objects service.id
  -- `updateFavorites!`
  let (_, first) ← first
  let table ← updateFavorites realm s.services.table service.id
  some ({ s with services := { s.services with table } }, !first.favorites)

/-- `prepare` for the segue to `MakeAppointmentVC` -/
def prepare (vc : DetailServiceVC) : AppointmentObjects := ⟨vc.service, vc.masters.map some⟩

end DetailServiceVC

/-! ## The appointment screen -/

namespace AppointmentObjects

/-- `viewDidLoad`: the placeholder is put in front of the masters. -/
def viewDidLoad (vc : AppointmentObjects) (s : ServiceScreens) :
    Option (AppointmentObjects × Cell) := do
  let service ← s.readService vc.service
  some ({ vc with arrayMaster := none :: vc.arrayMaster }, ⟨[service.nameService], service.image⟩)

def readArrayMaster (s : ServiceScreens) : Option Nat → Option Master
  | none => some {}
  | some key => s.readMaster key

def cellForRowAt (vc : AppointmentObjects) (s : ServiceScreens) (row : Nat) : Option Cell :=
  if row = 0 then
    some ⟨["", if vc.arrayMaster.length - 1 = 0 then "Нет специалистов" else "Выберите специалиста",
      ""], none⟩
  else do
    let held ← vc.arrayMaster[row]?
    let master ← readArrayMaster s held
    let service ← s.readService vc.service
    some ⟨[master.name, master.profil, service.timeService ++ ", " ++ service.placeService],
      master.image⟩

/-- `makeAppointment` with the texts and the date of the form: the service and the master of the
visible row are read when the entry is collected. -/
def makeAppointment (vc : AppointmentObjects) (s : ServiceScreens) (form : MakeAppointmentVC) :
    Option (Option ServiceEntry) :=
  if form.checkNameClient && form.checkPhoneClient && form.checkDataEntry then do
    let service ← s.readService vc.service
    let held ← vc.arrayMaster[form.getIdMasterEntry]?
    let master ← readArrayMaster s held
    some (some { form.serviceEntry with
      serviceName := service.nameService
      serviceIdDocument := service.id
      nameClient := form.nameClient
      numberPhoneClient := form.phoneClient
      idMaster := master.id
      dttmEntry := form.dateEntry
      price := service.placeService })
  else some none

end AppointmentObjects

/-! ## The steps -/

inductive ServiceScreensEvent
  | services (e : SyncEvent)
  | masters (e : SyncEvent)
  /-- `DetailServiceVC` is opened for a service -/
  | present (service : Nat)
  | cellForItemAt (row : Nat)
  | favoritesAction
  /-- with a registered person -/
  | actionPresentMakeApp
  | dismissAction
  | cellForRowAt (row : Nat)
  | makeAppointment (form : MakeAppointmentVC)
  | exitAction

namespace ServiceScreens

/-- A pass that traps is no step here. The service that is opened is one of the results of a list,
rows are rows of the open tables, and the screen in front is the one that is tapped. -/
def enabled (isURL : String → Bool) (s : ServiceScreens) : ServiceScreensEvent → Bool
  | .services e => (s.services.step isURL e).isSome
  | .masters e => (s.masters.step isURL e).isSome
  | .present service => s.detail.isNone && (s.readService service).isSome
  | .cellForItemAt row => s.detail.any (fun vc => decide (row < vc.masters.length))
  | .favoritesAction => s.detail.isSome && s.appointment.isNone
  | .actionPresentMakeApp => s.detail.isSome && s.appointment.isNone
  | .dismissAction => s.detail.isSome && s.appointment.isNone
  | .cellForRowAt row => s.appointment.any (fun vc => decide (row < vc.arrayMaster.length))
  | .makeAppointment form =>
      s.appointment.any (fun vc => decide (form.getIdMasterEntry < vc.arrayMaster.length))
  | .exitAction => s.appointment.isSome

def step (realm : Realm) (isURL : String → Bool) (s : ServiceScreens) :
    ServiceScreensEvent → Option ServiceScreens
  | .services e => (s.services.step isURL e).map (fun services => { s with services })
  | .masters e => (s.masters.step isURL e).map (fun masters => { s with masters })
  | .present service =>
      (DetailServiceVC.viewDidLoad s service).map (fun shown => { s with detail := some shown.1 })
  | .cellForItemAt row => s.detail.bind (fun vc => (vc.cellForItemAt s row).map (fun _ => s))
  | .favoritesAction => s.detail.bind (fun vc => (vc.favoritesAction realm s).map Prod.fst)
  | .actionPresentMakeApp => s.detail.bind (fun vc =>
      (vc.prepare.viewDidLoad s).map
        (fun shown => { s with appointment := some shown.1 }))
  | .dismissAction => some { s with detail := none }
  | .cellForRowAt row =>
      s.appointment.bind (fun vc => (vc.cellForRowAt s row).map (fun _ => s))
  | .makeAppointment form => s.appointment.bind (fun vc =>
      (vc.makeAppointment s form).map (fun entry =>
        if entry.isSome then { s with appointment := none } else s))
  | .exitAction => some { s with appointment := none }

/-! ## What the screens hold -/

def heldServices (s : ServiceScreens) : List Nat :=
  (s.detail.map (·.service)).toList ++ (s.appointment.map (·.service)).toList

def heldMasters (s : ServiceScreens) : List Nat :=
  (s.detail.map (·.masters)).getD [] ++ (s.appointment.map (·.arrayMaster.reduceOption)).getD []

/-- Every object that the screens read is stored. -/
structure HeldLive (s : ServiceScreens) : Prop where
  service : ∀ key ∈ s.heldServices, (s.readService key).isSome
  master : ∀ key ∈ s.heldMasters, (s.readMaster key).isSome

/-- A pass deletes no object that is held, and the text of the lookup of the favourite can be read,
as something that holds of a stored service. -/
def Spares (realm : Realm) (s : ServiceScreens) : ServiceScreensEvent → Prop
  | .services e => ∀ key ∈ s.heldServices, s.services.Spares key e
  | .masters e => ∀ key ∈ s.heldMasters, s.masters.Spares key e
  | .favoritesAction => ∀ vc ∈ s.detail, ∀ service ∈ s.readService vc.service,
      ∃ predicate ∈ realm.servicePredicate (favoritesFormat service.id),
        ∃ o ∈ s.services.table.objects, predicate o.2 = true
  | _ => True

end ServiceScreens

/-- The screens, opened with any content of Realm and any downloads pending. -/
def serviceScreens (realm : Realm) (isURL : String → Bool) :
    EventMachine (Process ServiceScreens) ServiceScreensEvent :=
  Process.machine (fun s => s.detail = none ∧ s.appointment = none)
    (ServiceScreens.enabled isURL) (ServiceScreens.step realm isURL)

/-- The screens have read nothing that is gone, and nothing that they may read next is gone. -/
def ReadsLive : Process ServiceScreens → Prop
  | .running s => s.HeldLive
  | .trapped => False

end Flamingo
