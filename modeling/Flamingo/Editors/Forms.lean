import Flamingo.Editors.Cloud
import Flamingo.PresentMaster.AddNewMasterVC

set_option autoImplicit false

/-! # The screens of the editors

The controls of `AddNewServiceVC`, `AddNewMasterVC` and `AddNewDiscontVC`: `viewDidLoad` fills them
with the record that is edited, and a save collects a new record from them. The masters of a service
are no control. They are collected from `arrayMasterAdded`, which nothing fills in edit mode.
-/

namespace Flamingo

/-- What the storyboard gives the controls: one image for all three image views, and a text for each
outlet. -/
structure Storyboard where
  launchScr : ImageData
  text : String → String

/-- The condition of the edit mode. -/
theorem not_isEmpty_of_ne {id : String} (hid : id ≠ "") : (!id.isEmpty) = true := by
  rw [Bool.not_eq_true', String.isEmpty_eq_false_iff]
  exact hid

/-! ## The service -/

structure AddNewServiceVC where
  serviceUpdate : Service := {}
  serviceNew : Service := {}
  arrayMasterAdded : List Master := []
  imageService : Option ImageData
  nameService : String
  timeService : String
  priceService : String
  descriptionService : String
  nameCategoryOfService : String
  cosmetologiService : String
  partOfTheBody : String
  maleMan : String

namespace AddNewServiceVC

def fromStoryboard (board : Storyboard) : AddNewServiceVC where
  imageService := some board.launchScr
  nameService := board.text "nameService"
  timeService := board.text "timeService"
  priceService := board.text "priceService"
  descriptionService := board.text "descriptionService"
  nameCategoryOfService := board.text "nameCategoryOfService"
  cosmetologiService := board.text "cosmetologiService"
  partOfTheBody := board.text "partOfTheBody"
  maleMan := board.text "maleMan"

def editingMode (vc : AddNewServiceVC) : AddNewServiceVC :=
  if !vc.serviceUpdate.id.isEmpty then
    { vc with
      nameService := vc.serviceUpdate.nameService
      timeService := vc.serviceUpdate.timeService
      priceService := vc.serviceUpdate.placeService
      descriptionService := vc.serviceUpdate.serviceDescription
      nameCategoryOfService := vc.serviceUpdate.nameCategoryService
      cosmetologiService := vc.serviceUpdate.comsmetology
      partOfTheBody := vc.serviceUpdate.partOfTheBody
      maleMan := vc.serviceUpdate.maleMan
      imageService := match vc.serviceUpdate.image with
        | none => vc.imageService
        | some imageData => some imageData }
  else vc

/-- Of the functions that `viewDidLoad` calls only `editingMode` sets a text or the image. -/
def viewDidLoad (vc : AddNewServiceVC) : AddNewServiceVC := vc.editingMode

def collectService (vc : AddNewServiceVC) : AddNewServiceVC :=
  { vc with
    serviceNew := { vc.serviceNew with
      nameService := vc.nameService
      placeService := vc.priceService
      timeService := vc.timeService
      serviceDescription := vc.descriptionService
      nameCategoryService := vc.nameCategoryOfService
      comsmetology := vc.cosmetologiService
      partOfTheBody := vc.partOfTheBody
      maleMan := vc.maleMan
      idsMasters := getMasterIds vc.arrayMasterAdded } }

/-- The save button; the image stands for its JPEG data. -/
def saveEvent (now : Int) (documentID : String) (vc : AddNewServiceVC) : EditorEvent :=
  .saveService now vc.serviceUpdate vc.collectService.serviceNew vc.imageService documentID

/-- The screen as it is opened for a service. -/
def opened (board : Storyboard) (serviceUpdate : Service) : AddNewServiceVC :=
  viewDidLoad { fromStoryboard board with serviceUpdate := serviceUpdate }

/-- The service that is collected of an untouched screen: all its texts and no masters. -/
def collected (serviceUpdate : Service) : Service :=
  { serviceUpdate with
    id := "", imageURL := "", image := none, favorites := false
    idsMasters := "", appTime := [] }

/-- **An untouched screen** has an image to upload, if only that of the storyboard. -/
theorem saveEvent_opened (board : Storyboard) (now : Int) (documentID : String)
    {serviceUpdate : Service} (hid : serviceUpdate.id ≠ "") :
    ∃ uploadData, (opened board serviceUpdate).saveEvent now documentID
      = .saveService now serviceUpdate (collected serviceUpdate) (some uploadData) documentID := by
  refine ⟨serviceUpdate.image.getD board.launchScr, ?_⟩
  rw [opened, viewDidLoad, editingMode, if_pos (not_isEmpty_of_ne hid)]
  dsimp only
  cases serviceUpdate.image <;> rfl

end AddNewServiceVC

/-! ## The master -/

namespace AddNewMasterVC

def collectMaster (vc : AddNewMasterVC) : AddNewMasterVC :=
  { vc with
    master := { vc.master with
      name := vc.nameMaster
      profil := vc.profilMaster
      info := vc.infoMaster } }

def saveEvent (documentID : String) (vc : AddNewMasterVC) : EditorEvent :=
  .saveMaster vc.masterUpdate vc.collectMaster.master vc.imageMaster documentID

def opened (board : Storyboard) (realm : Realm) (objects : Results Service)
    (masterUpdate : Master) : AddNewMasterVC :=
  viewDidLoad realm objects
    { fromStoryboard (some board.launchScr) (board.text "nameMaster") (board.text "profilMaster")
        (board.text "infoMaster") with masterUpdate := masterUpdate }

def collected (masterUpdate : Master) : Master :=
  { masterUpdate with id := "", imageURL := "", image := none }

theorem saveEvent_opened (board : Storyboard) (realm : Realm) (objects : Results Service)
    (documentID : String) {masterUpdate : Master} (hid : masterUpdate.id ≠ "") :
    ∃ uploadData, (opened board realm objects masterUpdate).saveEvent documentID
      = .saveMaster masterUpdate (collected masterUpdate) (some uploadData) documentID := by
  refine ⟨masterUpdate.image.getD board.launchScr, ?_⟩
  rw [opened, viewDidLoad, editingMode, if_pos (not_isEmpty_of_ne hid)]
  dsimp only
  cases masterUpdate.image <;> rfl

end AddNewMasterVC

/-! ## The discont -/

structure AddNewDiscontVC where
  discont : Discont := {}
  discontUpdate : Discont := {}
  image : Option ImageData
  nameDiscont : String
  dateStart : String
  dateEnd : String
  discriptionDiscont : String

namespace AddNewDiscontVC

def fromStoryboard (board : Storyboard) : AddNewDiscontVC where
  image := some board.launchScr
  nameDiscont := board.text "nameDiscont"
  dateStart := board.text "dateStart"
  dateEnd := board.text "dateEnd"
  discriptionDiscont := board.text "discriptionDiscont"

/-- `dateChanged` when neither field is being edited; `date` is the text of the picker's date. -/
def setupDatePicker (date : String) (vc : AddNewDiscontVC) : AddNewDiscontVC :=
  { vc with dateStart := date, dateEnd := date }

def editingMode (vc : AddNewDiscontVC) : AddNewDiscontVC :=
  let filled :=
    if !vc.discontUpdate.id.isEmpty then
      { vc with
        nameDiscont := vc.discontUpdate.name
        dateStart := vc.discontUpdate.dateStart
        dateEnd := vc.discontUpdate.dateEnd
        discriptionDiscont := vc.discontUpdate.descriptionDiscont }
    else vc
  match vc.discontUpdate.image with
  | none => filled
  | some imageData => { filled with image := some imageData }

def viewDidLoad (date : String) (vc : AddNewDiscontVC) : AddNewDiscontVC :=
  (vc.setupDatePicker date).editingMode

def collectDiscont (vc : AddNewDiscontVC) : AddNewDiscontVC :=
  { vc with
    discont := { vc.discont with
      id := ""
      name := vc.nameDiscont
      descriptionDiscont := vc.discriptionDiscont
      dateStart := vc.dateStart
      dateEnd := vc.dateEnd } }

def saveEvent (documentID : String) (vc : AddNewDiscontVC) : EditorEvent :=
  .saveDiscont vc.discontUpdate vc.collectDiscont.discont vc.image documentID

def opened (board : Storyboard) (date : String) (discontUpdate : Discont) : AddNewDiscontVC :=
  viewDidLoad date { fromStoryboard board with discontUpdate := discontUpdate }

def collected (discontUpdate : Discont) : Discont :=
  { discontUpdate with id := "", imageURL := "", image := none }

/-- The date that the picker has written is replaced. -/
theorem saveEvent_opened (board : Storyboard) (date documentID : String)
    {discontUpdate : Discont} (hid : discontUpdate.id ≠ "") :
    ∃ uploadData, (opened board date discontUpdate).saveEvent documentID
      = .saveDiscont discontUpdate (collected discontUpdate) (some uploadData) documentID := by
  refine ⟨discontUpdate.image.getD board.launchScr, ?_⟩
  have hedit := not_isEmpty_of_ne hid
  simp only [opened, viewDidLoad, setupDatePicker, editingMode, hedit, if_true]
  cases discontUpdate.image <;> rfl

end AddNewDiscontVC

end Flamingo
