import Flamingo.Lib.Trap
import Flamingo.PresentCatalogServicre.SamplePriceListVC

set_option autoImplicit false

/-! # The appointments of the account

`SampleServiceEmptyVC` shows an array of `ServiceEntry` objects that it fills when it is opened and
when the segment control is used. A cancellation deletes an object of the array from Realm and
reloads the table, but leaves the array as it is: its row is read again, and the object is gone.

An object in the array is a key of the table of entries; to read a key that is not there traps.
-/

namespace Flamingo

structure ServiceEnryTVCell where
  nameService : String
  labelMaster : String
  nameMaster : String
  /-- the date of the text with the mask `MMM d, HH:mm` -/
  timeServiceEntry : Int
  /-- `activate` or `diactivate` -/
  active : Bool
  deriving DecidableEq, Repr

inductive SampleSegue
  | presentMaster
  | presentService
  deriving DecidableEq, Repr

/-- What `prepare` hands to the destination. -/
inductive SampleDestination
  | addNewMasterVC (master : Nat × Master) (viewFlg : Bool)
  | detailServiceVC (service : Nat × Service)
  deriving DecidableEq, Repr

/-- The controller, with the classes in Realm that it looks at. -/
structure SampleServiceEmptyVC where
  entries : Table ServiceEntry
  masters : Results Master
  services : Results Service
  arrayServiceEntrySample : List Nat
  selectedSegmentIndex : Nat
  indexPathPresent : Option Nat
  /-- the row of the open alert -/
  alert : Option Nat
  /-- the objects whose cancellation has been confirmed -/
  cancelled : List Nat

namespace SampleServiceEmptyVC

/-! ## The list -/

/-- `arrayServiceEntry`: the results are live, sorted by their dates, the latest first. -/
def arrayServiceEntry (vc : SampleServiceEmptyVC) : Results ServiceEntry :=
  (vc.entries.objects.insertionSort (fun a b => a.2.dttmEntry ≤ b.2.dttmEntry)).reverse

/-- The loop that appends the samples with a property to the empty array. -/
def collect (vc : SampleServiceEmptyVC) (p : ServiceEntry → Bool) : SampleServiceEmptyVC :=
  { vc with arrayServiceEntrySample := (vc.arrayServiceEntry.filter p).map Prod.fst }

def firstIn (vc : SampleServiceEmptyVC) (now : Int) : SampleServiceEmptyVC :=
  vc.collect (fun sample => decide (sample.dttmEntry > now))

def actionActEntry (vc : SampleServiceEmptyVC) (index : Nat) (currentDate : Int) :
    SampleServiceEmptyVC :=
  let vc := { vc with selectedSegmentIndex := index }
  match vc.selectedSegmentIndex with
  | 0 => vc.firstIn currentDate
  | 1 => vc.collect (fun sample => decide (sample.dttmEntry < currentDate))
  | 2 => vc.collect (fun _ => true)
  | _ => vc.collect (fun _ => true)

def viewDidLoad (entries : Table ServiceEntry) (masters : Results Master)
    (services : Results Service) (now : Int) : SampleServiceEmptyVC :=
  firstIn {
    entries, masters, services
    arrayServiceEntrySample := []
    selectedSegmentIndex := 0
    indexPathPresent := none
    alert := none
    cancelled := [] } now

/-! ## The rows -/

/-- A property of `arrayServiceEntrySample[row]` is read. -/
def sample (vc : SampleServiceEmptyVC) (row : Nat) : Option ServiceEntry :=
  vc.arrayServiceEntrySample[row]?.bind vc.entries.read

/-- `realm.objects(Master.self).filter("id CONTAINS[c] %@", id)` -/
def mastersWith (vc : SampleServiceEmptyVC) (id : String) : Results Master :=
  vc.masters.filter (fun master => Text.containsC master.id id)

def servicesWith (vc : SampleServiceEmptyVC) (id : String) : Results Service :=
  vc.services.filter (fun service => Text.containsC service.id id)

def numberOfRowsInSection (vc : SampleServiceEmptyVC) : Nat := vc.arrayServiceEntrySample.length

def cellForRowAt (vc : SampleServiceEmptyVC) (row : Nat) (now : Int) : Option ServiceEnryTVCell := do
  let sample ← vc.sample row
  let nameMaster := match (vc.mastersWith sample.idMaster).head? with
    | some master => master.2.name
    | none => ""
  let active := match vc.selectedSegmentIndex with
    | 0 => true
    | 1 => false
    | _ => decide (sample.dttmEntry > now)
  some ⟨sample.serviceName, "Специалист", nameMaster, sample.dttmEntry, active⟩

/-- `prepare(for:)`: the object that is handed over, if one is found. -/
def prepare (vc : SampleServiceEmptyVC) (identifire : SampleSegue) :
    Option (Option SampleDestination) := do
  let row ← vc.indexPathPresent
  let sample ← vc.sample row
  match identifire with
  | .presentMaster =>
      some ((vc.mastersWith sample.idMaster).head?.map (.addNewMasterVC · true))
  | .presentService =>
      some ((vc.servicesWith sample.serviceIdDocument).head?.map .detailServiceVC)

/-! ## The cancellation -/

def actionCancellaration (vc : SampleServiceEmptyVC) (row : Nat) : SampleServiceEmptyVC :=
  { vc with indexPathPresent := some row, alert := some row }

/-- The handler of the alert's `cencelEntry`: the document that is deleted, and the state after
it. The object is deleted and the table is reloaded from the same array. -/
def cencelEntry (vc : SampleServiceEmptyVC) (row : Nat) :
    Option (DeleteDocument × SampleServiceEmptyVC) := do
  let key ← vc.arrayServiceEntrySample[row]?
  let sample ← vc.entries.read key
  -- the array keeps the key
  some (⟨sample.id, "", "service_enrty", ""⟩, { vc with
    entries := vc.entries.deleteObjectRealm key
    alert := none
    cancelled := key :: vc.cancelled })

/-- What a confirmed cancellation does. -/
theorem cencelEntry_eq_some {vc vc' : SampleServiceEmptyVC} {row : Nat} {d : DeleteDocument}
    (h : vc.cencelEntry row = some (d, vc')) :
    ∃ key sample, vc.arrayServiceEntrySample[row]? = some key ∧
      vc.entries.read key = some sample ∧ d = ⟨sample.id, "", "service_enrty", ""⟩ ∧
      vc' = { vc with
        entries := vc.entries.deleteObjectRealm key
        alert := none
        cancelled := key :: vc.cancelled } := by
  simp only [cencelEntry, Option.bind_eq_bind] at h
  obtain ⟨key, hkey, h⟩ := Option.bind_eq_some_iff.mp h
  obtain ⟨sample, hsample, h⟩ := Option.bind_eq_some_iff.mp h
  obtain ⟨rfl, rfl⟩ := Prod.mk.inj (Option.some.inj h)
  exact ⟨key, sample, hkey, hsample, rfl, rfl⟩

/-- `actionPresentMaster` and `actionPresentService` -/
def actionPresent (vc : SampleServiceEmptyVC) (row : Nat) : SampleServiceEmptyVC :=
  { vc with indexPathPresent := some row }

end SampleServiceEmptyVC

/-! ## The steps -/

inductive SampleEvent
  | actionActEntry (index : Nat) (now : Int)
  | actionCancellaration (row : Nat)
  | cancel
  | cencelEntry
  | present (identifire : SampleSegue) (row : Nat)
  | reloadData
  | cellForRowAt (row : Nat) (now : Int)
  /-- an appointment made elsewhere is saved -/
  | saved (entry : ServiceEntry)
  /-- a synchronisation changes the masters and the services -/
  | synced (masters : Results Master) (services : Results Service)

namespace SampleServiceEmptyVC

/-- Rows are rows of the table, and while the alert is open there are no other touches. -/
def enabled (vc : SampleServiceEmptyVC) : SampleEvent → Bool
  | .actionActEntry _ _ => vc.alert.isNone
  | .actionCancellaration row => vc.alert.isNone && decide (row < vc.numberOfRowsInSection)
  | .cancel => vc.alert.isSome
  | .cencelEntry => vc.alert.isSome
  | .present _ row => vc.alert.isNone && decide (row < vc.numberOfRowsInSection)
  | .reloadData => true
  | .cellForRowAt row _ => decide (row < vc.numberOfRowsInSection)
  | .saved _ => true
  | .synced _ _ => true

def step (vc : SampleServiceEmptyVC) : SampleEvent → Option SampleServiceEmptyVC
  | .actionActEntry index now => some (vc.actionActEntry index now)
  | .actionCancellaration row => some (vc.actionCancellaration row)
  | .cancel => some { vc with alert := none }
  | .cencelEntry => vc.alert.bind (fun row => (vc.cencelEntry row).map Prod.snd)
  | .present identifire row =>
      ((vc.actionPresent row).prepare identifire).map (fun _ => vc.actionPresent row)
  | .reloadData => some vc
  | .cellForRowAt row now => (vc.cellForRowAt row now).map (fun _ => vc)
  | .saved entry => some { vc with entries := vc.entries.saveObjectRealm entry }
  | .synced masters services => some { vc with masters, services }

/-- Every row shows an object that can be read, and none a cancelled one. -/
def OnlyLive (vc : SampleServiceEmptyVC) : Prop :=
  ∀ key ∈ vc.arrayServiceEntrySample, (vc.entries.read key).isSome ∧ key ∉ vc.cancelled

end SampleServiceEmptyVC

/-- The screen has not read a deleted object, and none of its rows will. -/
def ShowsOnlyLive : Process SampleServiceEmptyVC → Prop
  | .running vc => vc.OnlyLive
  | .trapped => False

/-- A cancellation has been confirmed since the array was filled. -/
def cancelledSince (before : Bool) : SampleEvent → Bool
  | .cencelEntry => true
  | .actionActEntry _ _ => false
  | _ => before

/-- The screen, opened with any content of Realm. -/
def sampleServiceEmpty : EventMachine (Process SampleServiceEmptyVC) SampleEvent :=
  Process.machine
    (fun vc => ∃ entries masters services now,
      vc = SampleServiceEmptyVC.viewDidLoad entries masters services now)
    SampleServiceEmptyVC.enabled SampleServiceEmptyVC.step

end Flamingo
