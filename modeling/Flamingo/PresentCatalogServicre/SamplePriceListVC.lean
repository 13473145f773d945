import Flamingo.Lib.Filtered
import Flamingo.DBManager.Results

set_option autoImplicit false

/-! # The price list and its search

`SamplePriceListVC` keeps two results: `services`, the services of a category or the favourites in
the order of their names, and `filteredService`, those of them whose name contains the text of the
search bar. The table counts and renders the second while a text is searched for, and the first
otherwise; `prepare` and the swipe action take the row as an index of the first.
-/

namespace Flamingo

/-- What a cell of a table shows. -/
structure Cell where
  texts : List String
  image : Option ImageData
  deriving DecidableEq, Repr

/-- The arguments of `FirebaseManager.deleteDocument`. -/
structure DeleteDocument where
  id : String
  imageURL : String
  collection : String
  child : String
  deriving DecidableEq, Repr

/-- `deleteDocument` returns: for another URL than one of the Storage, `reference(forURL:)` raises an
exception after the deletion of the document. -/
def DeleteDocument.returns (isStorageURL : String → Bool) (d : DeleteDocument) : Bool :=
  d.imageURL == "" || d.child == "" || isStorageURL d.imageURL

/-- The services of a category, or all of them if it is empty. -/
def servicesOfCategory (realm : Realm) (category : String) (objects : Results Service) :
    Option (Results Service) :=
  if category.isEmpty then some (objects.sorted realm (·.nameService))
  else
    (realm.servicePredicate ("nameCategoryService = '" ++ category ++ "'")).map (fun p =>
      (objects.filter p).sorted realm (·.nameService))

/-- The filter of a category, if its format can be read. -/
def categoryFilter (realm : Realm) (category : String) : Option (Service → Bool) :=
  if category.isEmpty then some (fun _ => true)
  else realm.servicePredicate ("nameCategoryService = '" ++ category ++ "'")

theorem servicesOfCategory_eq (realm : Realm) (category : String) (objects : Results Service) :
    servicesOfCategory realm category objects
      = (categoryFilter realm category).map (fun p =>
          (objects.filter p).sorted realm (·.nameService)) := by
  unfold servicesOfCategory categoryFilter
  split_ifs
  · have hall : objects.filter (fun _ => true) = objects := List.filter_true objects
    rw [Option.map_some, hall]
  · rfl

/-- `getDataFromTheDataBase` on the objects of `Service`. -/
def getDataFromTheDataBase (realm : Realm) (category : String) (presentFavorites : Bool)
    (objects : Results Service) : Option (Results Service) :=
  (servicesOfCategory realm category objects).map (fun services =>
    if presentFavorites then (services.filter (·.favorites)).sorted realm (·.nameService)
    else services)

/-- The controller: the services in Realm, the list it was opened for and the search bar. -/
structure SamplePriceListVC where
  objects : Table Service
  category : String
  presentFavorites : Bool
  /-- `searchController.searchBar.text` -/
  text : Option String
  isActive : Bool

namespace SamplePriceListVC

def seatchBarIsEmpty (vc : SamplePriceListVC) : Bool :=
  match vc.text with
  | none => false
  | some text => text.isEmpty

def isFiltering (vc : SamplePriceListVC) : Bool := vc.isActive && !vc.seatchBarIsEmpty

def services (realm : Realm) (vc : SamplePriceListVC) : Option (Results Service) :=
  getDataFromTheDataBase realm vc.category vc.presentFavorites vc.objects.objects

/-- `filterContentForSeatchText` with the text of the search bar, which is forced. -/
def filteredService (realm : Realm) (vc : SamplePriceListVC) : Option (Results Service) := do
  let searchText ← vc.text
  let services ← vc.services realm
  some ((services.filter (fun service => Text.containsC service.nameService searchText)).sorted realm
    (·.nameService))

/-- `numberOfRowsInSection` -/
def numberOfRows (realm : Realm) (vc : SamplePriceListVC) : Option Nat :=
  if vc.isFiltering then (vc.filteredService realm).map List.length
  else (vc.services realm).map List.length

/-- The service that `cellForRowAt` displays; an index out of range is a trap. -/
def arrayToDisplay (realm : Realm) (vc : SamplePriceListVC) (row : Nat) :
    Option (Nat × Service) := do
  let results ← if vc.isFiltering then vc.filteredService realm else vc.services realm
  results[row]?

/-- The cell of a service; the image is forced. -/
def cell (service : Service) : Option Cell := do
  let image ← service.image
  some ⟨[service.nameService, service.placeService, service.timeService], some image⟩

def cellForRowAt (realm : Realm) (vc : SamplePriceListVC) (row : Nat) : Option Cell := do
  let service ← vc.arrayToDisplay realm row
  cell service.2

/-- `prepare` for `segueDetail`: the service that the detail controller gets. -/
def prepareDetail (realm : Realm) (vc : SamplePriceListVC) (row : Nat) :
    Option (Nat × Service) := do
  let services ← vc.services realm
  services[row]?

/-- The confirmed swipe action: the document that is deleted, and the controller after it, if there
is no exception. -/
def deleteAction (realm : Realm) (isStorageURL : String → Bool) (vc : SamplePriceListVC)
    (row : Nat) : Option (DeleteDocument × Option SamplePriceListVC) := do
  let services ← vc.services realm
  let service ← services[row]?
  let document : DeleteDocument :=
    ⟨service.2.id, service.2.imageURL, "services", "service_images"⟩
  some (document,
    if document.returns isStorageURL then
      some { vc with objects := vc.objects.deleteObjectRealm service.1 }
    else none)

/-! ## The two results -/

/-- `services` is sorted, so that sorting a filter of it changes nothing. -/
theorem services_sorted {realm : Realm} {vc : SamplePriceListVC} {services : Results Service}
    (h : vc.services realm = some services) :
    ∃ results : Results Service, results.Nodup ∧
      services = results.sorted realm (·.nameService) := by
  have hobjects : vc.objects.objects.Nodup := List.Nodup.of_map _ vc.objects.nodup
  obtain ⟨ofCategory, hcategory, rfl⟩ := Option.map_eq_some_iff.mp h
  have hsorted : ∃ results : Results Service, results.Nodup ∧
      ofCategory = results.sorted realm (·.nameService) := by
    unfold servicesOfCategory at hcategory
    split_ifs at hcategory with hempty
    · exact ⟨_, hobjects, (Option.some.inj hcategory).symm⟩
    · obtain ⟨p, -, rfl⟩ := Option.map_eq_some_iff.mp hcategory
      exact ⟨_, hobjects.filter _, rfl⟩
  by_cases hfavorites : vc.presentFavorites = true
  · obtain ⟨results, hnodup, rfl⟩ := hsorted
    rw [if_pos hfavorites]
    exact ⟨_, ((Results.sorted_perm realm _ results).symm.nodup hnodup).filter _, rfl⟩
  · rw [if_neg hfavorites]
    exact hsorted

theorem services_nodup {realm : Realm} {vc : SamplePriceListVC} {services : Results Service}
    (h : vc.services realm = some services) : services.Nodup := by
  obtain ⟨results, hnodup, rfl⟩ := services_sorted h
  exact (Results.sorted_perm realm _ results).symm.nodup hnodup

/-- **The searched services** are the services whose name contains the text, in the same order. -/
theorem filteredService_eq {realm : Realm} {vc : SamplePriceListVC} {services : Results Service}
    {searchText : String} (htext : vc.text = some searchText)
    (h : vc.services realm = some services) :
    vc.filteredService realm = some (services.filter
      (fun service => Text.containsC service.nameService searchText)) := by
  obtain ⟨results, -, hsorted⟩ := services_sorted h
  simp only [filteredService, htext, h, Option.bind_eq_bind, Option.bind_some]
  rw [hsorted, Results.sorted_filter_sorted]

/-! ## The row acted on -/

/-- The service that the detail controller gets and the one that is deleted from Firestore and
Realm are the service that the row displays. -/
def ActsOnShown (realm : Realm) (isStorageURL : String → Bool) (vc : SamplePriceListVC)
    (row : Nat) : Prop :=
  ∃ o, vc.arrayToDisplay realm row = some o ∧ vc.prepareDetail realm row = some o ∧
    vc.deleteAction realm isStorageURL row
      = some (⟨o.2.id, o.2.imageURL, "services", "service_images"⟩,
        some { vc with objects := vc.objects.deleteObjectRealm o.1 })

/-- The searched text is contained in the names of the services up to the row. -/
def MatchesUpTo (realm : Realm) (vc : SamplePriceListVC) (row : Nat) : Prop :=
  ∀ searchText ∈ vc.text, ∀ services ∈ vc.services realm, ∀ o ∈ services.take (row + 1),
    Text.containsC o.2.nameService searchText = true

/-- The image of the service at the row of the list, if it has one, is in the Storage. -/
def ImageStored (realm : Realm) (isStorageURL : String → Bool) (vc : SamplePriceListVC)
    (row : Nat) : Prop :=
  ∀ services ∈ vc.services realm, ∀ o ∈ services[row]?,
    o.2.imageURL = "" ∨ isStorageURL o.2.imageURL = true

/-- The row acts on what it shows when both results have the same service at its index, and the
deletion of its image raises no exception. -/
theorem actsOnShown_iff_eq {realm : Realm} {isStorageURL : String → Bool} {vc : SamplePriceListVC}
    {services : Results Service} {row : Nat} (h : vc.services realm = some services)
    (hrow : row < services.length) :
    vc.ActsOnShown realm isStorageURL row ↔
      vc.arrayToDisplay realm row = services[row]? ∧ vc.ImageStored realm isStorageURL row := by
  have hget : services[row]? = some services[row] := List.getElem?_eq_getElem hrow
  have hstored : vc.ImageStored realm isStorageURL row ↔ (DeleteDocument.mk services[row].2.id
      services[row].2.imageURL "services" "service_images").returns isStorageURL = true := by
    simp only [ImageStored, h, hget, Option.mem_def, Option.some.injEq, forall_eq',
      DeleteDocument.returns, Bool.or_eq_true, beq_iff_eq, String.reduceEq, or_false]
  constructor
  · rintro ⟨o, hshown, hpassed, hdeleted⟩
    simp only [prepareDetail, h, Option.bind_eq_bind, Option.bind_some] at hpassed
    refine ⟨hshown.trans hpassed.symm, hstored.mpr ?_⟩
    simp only [deleteAction, h, hget, Option.bind_eq_bind, Option.bind_some, Option.some.injEq,
      Prod.mk.injEq] at hdeleted
    by_contra hraises
    rw [if_neg hraises] at hdeleted
    cases hdeleted.2
  · rintro ⟨heq, himage⟩
    refine ⟨services[row], heq.trans hget, ?_, ?_⟩
    · simp only [prepareDetail, h, Option.bind_eq_bind, Option.bind_some, hget]
    · simp only [deleteAction, h, Option.bind_eq_bind, Option.bind_some, hget,
        if_pos (hstored.mp himage)]

/-- **The index is in range**: a row of the table is a row of `services`. -/
theorem row_lt_length {realm : Realm} {vc : SamplePriceListVC} {row rows : Nat}
    (hrows : vc.numberOfRows realm = some rows) (hrow : row < rows) :
    ∃ services, vc.services realm = some services ∧ row < services.length := by
  unfold numberOfRows at hrows
  split_ifs at hrows with hfiltering
  · obtain ⟨filtered, hfiltered, rfl⟩ := Option.map_eq_some_iff.mp hrows
    cases htext : vc.text with
    | none =>
        simp only [filteredService, htext, Option.bind_eq_bind, Option.bind_none] at hfiltered
        cases hfiltered
    | some searchText =>
        cases hservices : vc.services realm with
        | none =>
            simp only [filteredService, htext, hservices, Option.bind_eq_bind, Option.bind_none,
              Option.bind_some] at hfiltered
            cases hfiltered
        | some services =>
            rw [filteredService_eq htext hservices] at hfiltered
            obtain rfl := Option.some.inj hfiltered
            exact ⟨services, rfl, Filtered.lt_length_of_filter hrow⟩
  · obtain ⟨services, hservices, rfl⟩ := Option.map_eq_some_iff.mp hrows
    exact ⟨services, hservices, hrow⟩

/-- **The row acted on is the row shown** if and only if no text is searched for, or the names of
all services up to the row contain it, and the image of its service, if there is one, is in the
Storage. -/
theorem actsOnShown_iff (realm : Realm) (isStorageURL : String → Bool) (vc : SamplePriceListVC)
    (row rows : Nat) (hrows : vc.numberOfRows realm = some rows) (hrow : row < rows) :
    vc.ActsOnShown realm isStorageURL row ↔
      (vc.isFiltering = false ∨ vc.MatchesUpTo realm row) ∧
        vc.ImageStored realm isStorageURL row := by
  obtain ⟨services, hservices, hlt⟩ := row_lt_length hrows hrow
  rw [actsOnShown_iff_eq hservices hlt]
  refine and_congr_left fun _ => ?_
  cases hfiltering : vc.isFiltering with
  | false =>
      -- both functions read `services`
      simp only [arrayToDisplay, hfiltering, hservices, Bool.false_eq_true, if_false,
        Option.bind_eq_bind, Option.bind_some, true_or]
  | true =>
      rw [numberOfRows, if_pos hfiltering] at hrows
      obtain ⟨filtered, hfiltered, rfl⟩ := Option.map_eq_some_iff.mp hrows
      obtain ⟨searchText, htext, -⟩ := Option.bind_eq_some_iff.mp hfiltered
      rw [filteredService_eq htext hservices] at hfiltered
      obtain rfl := Option.some.inj hfiltered
      -- the same index of a list and of a filter of it
      have hagree := Filtered.getElem?_filter_iff (services_nodup hservices) hrow
      simp only [arrayToDisplay, hfiltering, if_true, filteredService_eq htext hservices,
        Option.bind_eq_bind, Option.bind_some, Bool.true_eq_false, false_or, MatchesUpTo, htext,
        hservices, Option.mem_def, Option.some.injEq, forall_eq']
      exact hagree

/-- The beginning of the download URLs of Firebase Storage. -/
def isDownloadURL (url : String) : Bool :=
  "https://firebasestorage.googleapis.com/".toList.isPrefixOf url.toList

/-- A price list with two services, in which a text is searched for. -/
def searching (searchText : String) : SamplePriceListVC where
  objects := (Table.empty.saveObjectRealm
      { id := "second", nameService := "pedicure", image := some [2]
        imageURL := "https://firebasestorage.googleapis.com/pedicure" }).saveObjectRealm
        { id := "first", nameService := "manicure", image := some [1] }
  category := ""
  presentFavorites := false
  text := some searchText
  isActive := true

/-- Both services contain the text, and the second row acts on the second service. -/
theorem actsOnShown_cure :
    (searching "CURE").cellForRowAt plainRealm 1 = some ⟨["pedicure", "", ""], some [2]⟩ ∧
      (searching "CURE").ActsOnShown plainRealm isDownloadURL 1 := by
  have hmatches : (searching "CURE").MatchesUpTo plainRealm 1 := by
    intro searchText htext services hservices
    obtain rfl := Option.some.inj htext
    obtain rfl := Option.some.inj hservices
    decide
  have himage : (searching "CURE").ImageStored plainRealm isDownloadURL 1 := by
    intro services hservices
    obtain rfl := Option.some.inj hservices
    decide
  exact ⟨by decide, (actsOnShown_iff plainRealm isDownloadURL (searching "CURE") 1 2 (by decide)
    (by decide)).mpr ⟨Or.inr hmatches, himage⟩⟩

/-- **The wrong service.** The text drops the first service: the row that shows the pedicure deletes
the manicure. -/
theorem not_actsOnShown : ¬ ∀ (realm : Realm) (isStorageURL : String → Bool)
    (vc : SamplePriceListVC) (row rows : Nat),
    vc.numberOfRows realm = some rows → row < rows → vc.ActsOnShown realm isStorageURL row := by
  intro hall
  have hrows : (searching "ped").numberOfRows plainRealm = some 1 := by decide
  obtain ⟨o, hshown, -, hdeleted⟩ := hall plainRealm isDownloadURL
    (searching "ped") 0 1 hrows Nat.zero_lt_one
  have hpedicure : ((searching "ped").arrayToDisplay plainRealm 0).map (·.2.id)
      = some "second" := by decide
  have hmanicure : ((searching "ped").deleteAction plainRealm isDownloadURL 0).map (·.1.id)
      = some "first" := by decide
  rw [hshown, Option.map_some, Option.some.injEq] at hpedicure
  rw [hdeleted, Option.map_some, Option.some.injEq] at hmanicure
  exact absurd (hpedicure.symm.trans hmanicure) (by decide)

end SamplePriceListVC

end Flamingo
