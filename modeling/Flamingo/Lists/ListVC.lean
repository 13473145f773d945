import Flamingo.Lib.Machine
import Flamingo.DBManager.Sync
import Flamingo.PresentCatalogServicre.SamplePriceListVC

set_option autoImplicit false

/-! # The tables of masters, disconts and services

`MastersVC`, `DiscontVC` and `SamplePriceListVC` show live Realm results in a table that is redrawn
when the results are assigned anew, and delete the record of a row after a swipe and an alert. The
alert keeps the index of the row; the record is looked up in the results when it is confirmed.

A state is the class with its synchronisation, the records that the rows were drawn with and the
open alert.
-/

namespace Flamingo

/-- What the three controllers have of their own. -/
structure ListVC (c : RealmClass) where
  /-- the folder of the images, for `deleteDocument` -/
  child : String
  imageURL : c.Object → String
  /-- `cellForRowAt`, which may force an image that is not there -/
  cell : c.Object → Option Cell
  /-- the results that `viewDidLoad` assigns -/
  load : Results c.Object → Option (Results c.Object)
  /-- the results that a refresh and a deletion assign -/
  refill : Results c.Object → Option (Results c.Object)
  /-- the objects that are in the results -/
  listed : c.Object → Bool
  /-- the order of the results, before they are assigned anew and after it -/
  order : Bool → Nat × c.Object → Nat × c.Object → Bool
  order_total : ∀ refilled a b, order refilled a b = true ∨ order refilled b a = true
  order_trans : ∀ refilled a b c, order refilled a b = true → order refilled b c = true →
    order refilled a c = true
  results_eq : (∀ objects, load objects = none ∧ refill objects = none) ∨
    ∀ objects : Results c.Object,
      load objects = some (StableSort.sort (order false) (objects.filter listed)) ∧
      refill objects = some (StableSort.sort (order true) (objects.filter listed))

theorem filter_all {α : Type} (objects : Results α) : objects.filter (fun _ => true) = objects :=
  List.filter_true objects

/-- The masters are sorted until the first refresh or deletion. -/
def mastersVC (realm : Realm) : ListVC masterClass where
  child := "master_images"
  imageURL := (·.imageURL)
  cell master := some ⟨[master.name, master.profil], master.image⟩
  load objects := some (objects.sorted realm (·.name))
  refill := some
  listed _ := true
  order refilled a b := refilled || Results.order realm (·.name) a b
  order_total refilled a b := by
    cases refilled with
    | false => exact Results.order_total realm _ a b
    | true => exact Or.inl rfl
  order_trans refilled a b c hab hbc := by
    cases refilled with
    | false => exact Results.order_trans realm _ a b c hab hbc
    | true => rfl
  results_eq := by
    refine Or.inr fun objects => ?_
    rw [filter_all]
    exact ⟨rfl, congrArg some (StableSort.sort_all objects).symm⟩

def discontVC : ListVC discontClass where
  child := "discont_images"
  imageURL := (·.imageURL)
  cell discont := discont.image.map (fun image =>
    ⟨[discont.name, discont.descriptionDiscont, discont.descriptionDiscont], some image⟩)
  load := some
  refill := some
  listed _ := true
  order _ _ _ := true
  order_total _ _ _ := Or.inl rfl
  order_trans _ _ _ _ _ _ := rfl
  results_eq := by
    refine Or.inr fun objects => ?_
    rw [filter_all, StableSort.sort_all]
    exact ⟨rfl, rfl⟩

/-- The services of a filter, the favourites among them if the flag is set. -/
def listedService (filter : Option (Service → Bool)) (presentFavorites : Bool) (service : Service) :
    Bool :=
  filter.any (fun p => p service) && (!presentFavorites || service.favorites)

/-- **The list of a filter** is what passes it, in order. -/
theorem getDataFromTheDataBase_of_filter {realm : Realm} {category : String}
    {p : Service → Bool} (h : categoryFilter realm category = some p) (presentFavorites : Bool)
    (objects : Results Service) :
    getDataFromTheDataBase realm category presentFavorites objects
      = some ((objects.filter (listedService (some p) presentFavorites)).sorted realm
        (·.nameService)) := by
  rw [getDataFromTheDataBase, servicesOfCategory_eq, h, Option.map_some, Option.map_some]
  cases presentFavorites with
  | false =>
      have hlisted : listedService (some p) false = p := by
        funext service
        rw [listedService, Option.any_some, Bool.not_false, Bool.true_or, Bool.and_true]
      rw [if_neg Bool.false_ne_true, hlisted]
  | true =>
      have hlisted : listedService (some p) true = fun service => service.favorites && p service := by
        funext service
        rw [listedService, Option.any_some, Bool.not_true, Bool.false_or, Bool.and_comm]
      rw [if_pos rfl, Results.sorted_filter_sorted, Results.filter_sorted, hlisted]
      simp only [Results.filter, List.filter_filter]

theorem getDataFromTheDataBase_of_unreadable {realm : Realm} {category : String}
    (h : categoryFilter realm category = none) (presentFavorites : Bool)
    (objects : Results Service) :
    getDataFromTheDataBase realm category presentFavorites objects = none := by
  rw [getDataFromTheDataBase, servicesOfCategory_eq, h, Option.map_none, Option.map_none]

/-- The price list without a search. -/
def samplePriceListVC (realm : Realm) (category : String) (presentFavorites : Bool) :
    ListVC serviceClass where
  child := "service_images"
  imageURL := (·.imageURL)
  cell := SamplePriceListVC.cell
  load := getDataFromTheDataBase realm category presentFavorites
  refill := getDataFromTheDataBase realm category presentFavorites
  listed := listedService (categoryFilter realm category) presentFavorites
  order _ := Results.order realm (·.nameService)
  order_total _ := Results.order_total realm _
  order_trans _ := Results.order_trans realm _
  results_eq := by
    cases hfilter : categoryFilter realm category with
    | none =>
        refine Or.inl fun objects => ?_
        have hnone := getDataFromTheDataBase_of_unreadable hfilter presentFavorites objects
        exact ⟨hnone, hnone⟩
    | some p =>
        refine Or.inr fun objects => ?_
        have hlist := getDataFromTheDataBase_of_filter hfilter presentFavorites objects
        exact ⟨hlist, hlist⟩

inductive Screen
  | masters
  | disconts
  | samplePriceList (category : String) (presentFavorites : Bool)
  deriving DecidableEq, Repr

def Screen.realmClass : Screen → RealmClass
  | .masters => masterClass
  | .disconts => discontClass
  | .samplePriceList _ _ => serviceClass

def Screen.listVC (realm : Realm) : (screen : Screen) → ListVC screen.realmClass
  | .masters => mastersVC realm
  | .disconts => discontVC
  | .samplePriceList category presentFavorites => samplePriceListVC realm category presentFavorites

/-! ## The steps -/

structure ListState (c : RealmClass) where
  sync : SyncState c
  /-- the results have been assigned anew since `viewDidLoad` -/
  refilled : Bool
  /-- the refreshes that have not reached their completion -/
  refreshing : Nat
  /-- the records that the rows were drawn with -/
  shown : Nat → Option (Nat × c.Object)
  /-- the open alert: the index of the row that was swiped, and the record it displayed -/
  alert : Option (Nat × (Nat × c.Object))

inductive ListEvent
  | sync (e : SyncEvent)
  | moveLastTo (i : Nat)
  | cellForRowAt (row : Nat)
  | refresh
  | refreshed
  | reloadData
  | swipe (row : Nat)
  | cancel
  | confirm

namespace ListVC

variable {c : RealmClass} (vc : ListVC c)

/-- The results as they are now. -/
def results (s : ListState c) : Option (Results c.Object) :=
  if s.refilled then vc.refill s.sync.table.objects else vc.load s.sync.table.objects

/-- A row is drawn. -/
def draw (s : ListState c) (row : Nat) : Option (ListState c) := do
  let results ← vc.results s
  let object ← results[row]?
  let _ ← vc.cell object.2
  some { s with shown := Function.update s.shown row (some object) }

/-- An object is deleted from Realm and the results are assigned anew. -/
def deleteObject (s : ListState c) (object : Nat × c.Object) : ListState c :=
  { s with
    sync := { s.sync with table := s.sync.table.deleteObjectRealm object.1 }
    refilled := true
    shown := fun _ => none
    alert := none }

/-- The handler of the alert's delete button: the document that is deleted, and the state after
it, if there is no exception. -/
def delete (isStorageURL : String → Bool) (s : ListState c) (row : Nat) :
    Option (DeleteDocument × Option (ListState c)) := do
  let results ← vc.results s
  let object ← results[row]?
  let document : DeleteDocument :=
    ⟨c.id object.2, vc.imageURL object.2, c.collection, vc.child⟩
  some (document, if document.returns isStorageURL then some (deleteObject s object) else none)

/-- `getData…OfFirebase` has no effect before the completion of its query, so a refresh is only
counted; while an alert is open there are no other touches. -/
def step (isURL isStorageURL : String → Bool) (s : ListState c) : ListEvent → Option (ListState c)
  | .sync e => (s.sync.step isURL e).map (fun sync => { s with sync })
  | .moveLastTo i => some { s with sync := { s.sync with table := s.sync.table.moveLastTo i } }
  | .cellForRowAt row => vc.draw s row
  | .refresh =>
      if s.alert.isNone then some { s with refreshing := s.refreshing + 1 } else none
  | .refreshed =>
      if s.refreshing = 0 then none
      else some { s with
        refreshing := s.refreshing - 1
        refilled := true
        shown := fun _ => none }
  | .reloadData => some { s with shown := fun _ => none }
  | .swipe row =>
      if s.alert.isNone then
        (s.shown row).map (fun object => { s with alert := some (row, object) })
      else none
  | .cancel => some { s with alert := none }
  | .confirm => s.alert.bind (fun a => (vc.delete isStorageURL s a.1).bind Prod.snd)

/-- The runs of a table of the controller, from any class with unique ids. -/
def runs (isURL isStorageURL : String → Bool) : EventMachine (ListState c) ListEvent where
  init s := (sync c isURL).init s.sync ∧ s.refilled = false ∧ s.refreshing = 0 ∧
    (∀ row, s.shown row = none) ∧ s.alert = none
  step := vc.step isURL isStorageURL

end ListVC

end Flamingo
