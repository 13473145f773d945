import Flamingo.Lib.Machine
import Flamingo.Lib.ObjectStore
import Flamingo.DBManager.FirebaseManager

set_option autoImplicit false

/-! # The editors and what they write

`AddNewServiceVC`, `AddNewMasterVC` and `AddNewDiscontVC` save a record with its image: the image
goes to Firebase Storage under a path that is made of the record's name, its download URL goes into
the document. The three editors issue the upload of the new image, the write of the document and
the deletion of the old image in different orders.

A state is the content of the Storage and of the three collections. Each document carries the path
its URL denotes and the image that was uploaded for it.
-/

namespace Flamingo

/-! ## Firebase Storage -/

namespace StoragePath

/-- The components of a path that are not empty, joined again. -/
def standardized (path : String) : String :=
  String.ofList (List.intercalate ['/']
    ((Text.components path '/').filter (fun component => !component.isEmpty)))

/-- `child(_:)` of the reference to `object`. -/
def child (object path : String) : String :=
  if path = "" then object else standardized (object ++ "/" ++ path)

-- empty components are dropped
example : child "service_images" "/Маникюр//" = "service_images/Маникюр" := by decide

end StoragePath

/-- The URLs of Firebase Storage: `downloadURL` of a path and `reference(forURL:)`, which raises an
exception on other URLs (`none`). A download URL denotes its path. -/
structure DownloadURL where
  downloadURL : String → String
  reference : String → Option String
  downloadURL_ne_empty : ∀ path, downloadURL path ≠ ""
  reference_downloadURL : ∀ path, reference (downloadURL path) = some path

/-- URLs that are a scheme before the path. -/
def schemeURL : DownloadURL where
  downloadURL path := "https://" ++ path
  reference url :=
    if "https://".toList.isPrefixOf url.toList then some (String.ofList (url.toList.drop 8))
    else none
  downloadURL_ne_empty path := by
    intro h
    have := congrArg String.length h
    simp at this
  reference_downloadURL path := by
    simp

inductive Collection
  | services
  | masters
  | disconts
  deriving DecidableEq, Repr

variable (urls : DownloadURL)

/-- A document whose URL denotes a path, with the image that was uploaded for it. -/
structure Stored where
  document : Document
  path : String
  image : ImageData
  imageURL_eq : document.data.string? "imageURL" = some (urls.downloadURL path)

structure CloudState where
  storage : String → Option ImageData
  docs : Collection → List (Stored urls)

variable {urls}

/-! ## FirebaseManager -/

/-- The fields of a master's document are replaced. -/
def Stored.updata (d : Stored urls) (master : Master) (path : String) (uploadData : ImageData)
    (h : master.imageURL = urls.downloadURL path) : Stored urls where
  document := { d.document with data := updataMaster master d.document.data }
  path := path
  image := uploadData
  imageURL_eq := by rw [updataMaster_imageURL, h]

namespace CloudState

/-- `putData` -/
def putData (s : CloudState urls) (path : String) (uploadData : ImageData) : CloudState urls :=
  { s with storage := ObjectStore.put s.storage path uploadData }

/-- `addDocument` -/
def add (s : CloudState urls) (collection : Collection) (d : Stored urls) : CloudState urls :=
  { s with docs := Function.update s.docs collection (s.docs collection ++ [d]) }

/-- The documents that are left when the one with the id is deleted. -/
def without (s : CloudState urls) (collection : Collection) (id : String) :
    Collection → List (Stored urls) :=
  Function.update s.docs collection
    ((s.docs collection).filter (fun d => d.document.documentID != id))

def deleteImageOfFireBaseStorage (s : CloudState urls) (imageURL : String) :
    Option (CloudState urls) :=
  (urls.reference imageURL).map (fun path =>
    { s with storage := ObjectStore.remove s.storage path })

def deleteDocument (s : CloudState urls) (id imageURL : String) (collection : Collection)
    (child : String) : Option (CloudState urls) :=
  let s := { s with docs := s.without collection id }
  if imageURL ≠ "" ∧ child ≠ "" then s.deleteImageOfFireBaseStorage imageURL else some s

def updataMaster (s : CloudState urls) (master : Master) (idDocument imageURLDel path : String)
    (uploadData : ImageData) (h : master.imageURL = urls.downloadURL path) :
    Option (CloudState urls) :=
  let s := { s with docs := Function.update s.docs .masters ((s.docs .masters).map (fun d : Stored urls =>
    if d.document.documentID == idDocument then d.updata master path uploadData h else d)) }
  s.deleteImageOfFireBaseStorage imageURLDel

end CloudState

/-! ## The editors

`documentID` is the id that Firestore generates for a new document. Without an image nothing is
uploaded, and the editors for services and masters do nothing at all. -/

namespace AddNewServiceVC

def imageName (nameService : String) : String :=
  if nameService = "" then "imageService" else nameService

def imagePath (nameService : String) : String :=
  StoragePath.child (StoragePath.child "" "service_images") (imageName nameService)

/-- `saveAction` with the collected service; `serviceUpdate` is the service that is edited. -/
def saveAction (now : Int) (s : CloudState urls) (serviceUpdate serviceNew : Service)
    (image : Option ImageData) (documentID : String) : Option (CloudState urls) :=
  match image with
  | none => some s
  | some uploadData => do
      let path := imagePath serviceNew.nameService
      let s := s.putData path uploadData
      let serviceNew := { serviceNew with imageURL := urls.downloadURL path }
      if serviceNew.imageURL = "" then some s
      else
        let appTime ← createDataEntry now serviceNew.timeService
        let s := s.add .services
          ⟨⟨documentID, saveServiceToFirebase serviceNew appTime⟩, path, uploadData, rfl⟩
        if !serviceUpdate.id.isEmpty then
          s.deleteDocument serviceUpdate.id serviceUpdate.imageURL .services "service_images"
        else some s

end AddNewServiceVC

namespace AddNewMasterVC

def imageName (nameMaster : String) : String :=
  if nameMaster = "" then "imageDiscont" else nameMaster

def imagePath (nameMaster : String) : String :=
  StoragePath.child (StoragePath.child "" "master_images") (imageName nameMaster)

def saveMaster (s : CloudState urls) (masterUpdate master : Master) (image : Option ImageData)
    (documentID : String) : Option (CloudState urls) :=
  match image with
  | none => some s
  | some uploadData =>
      let path := imagePath master.name
      let s := s.putData path uploadData
      let master := { master with imageURL := urls.downloadURL path }
      if master.imageURL = "" then some s
      else if !masterUpdate.id.isEmpty then
        s.updataMaster master masterUpdate.id masterUpdate.imageURL path uploadData rfl
      else
        some (s.add .masters
          ⟨⟨documentID, saveMasterToFirebase master⟩, path, uploadData, rfl⟩)

end AddNewMasterVC

namespace AddNewDiscontVC

def imageName (nameDiscont : String) : String :=
  if nameDiscont = "" then "imageDiscont" else nameDiscont

def imagePath (nameDiscont : String) : String :=
  StoragePath.child (StoragePath.child "" "discont_images") (imageName nameDiscont)

/-- `saveDataToFireBase`, the download URL being there when the timer fires. -/
def saveDataToFireBase (s : CloudState urls) (discont : Discont) (image : Option ImageData)
    (documentID : String) : CloudState urls :=
  match image with
  | none => s
  | some uploadData =>
      let path := imagePath discont.name
      let s := s.putData path uploadData
      let discont := { discont with id := "", imageURL := urls.downloadURL path }
      if discont.imageURL.isEmpty then s
      else s.add .disconts ⟨⟨documentID, saveDiscontToFirebase discont⟩, path, uploadData, rfl⟩

def saveDiscont (s : CloudState urls) (discontUpdate discont : Discont)
    (image : Option ImageData) (documentID : String) : Option (CloudState urls) :=
  if !discontUpdate.id.isEmpty then
    (s.deleteDocument discontUpdate.id discontUpdate.imageURL .disconts "discont_images").map
      (fun s => saveDataToFireBase s discont image documentID)
  else some (saveDataToFireBase s discont image documentID)

end AddNewDiscontVC

/-- A completed operation: a saved editor, or the deletion of a record from its list. -/
inductive EditorEvent
  | saveService (now : Int) (serviceUpdate serviceNew : Service) (image : Option ImageData)
      (documentID : String)
  | saveMaster (masterUpdate master : Master) (image : Option ImageData) (documentID : String)
  | saveDiscont (discontUpdate discont : Discont) (image : Option ImageData) (documentID : String)
  | deleteDocument (id imageURL : String) (collection : Collection) (child : String)

namespace CloudState

def step (s : CloudState urls) : EditorEvent → Option (CloudState urls)
  | .saveService now serviceUpdate serviceNew image documentID =>
      -- Firestore generates an id that no document has had
      if documentID = serviceUpdate.id then none
      else AddNewServiceVC.saveAction now s serviceUpdate serviceNew image documentID
  | .saveMaster masterUpdate master image documentID =>
      AddNewMasterVC.saveMaster s masterUpdate master image documentID
  | .saveDiscont discontUpdate discont image documentID =>
      AddNewDiscontVC.saveDiscont s discontUpdate discont image documentID
  | .deleteDocument id imageURL collection child =>
      s.deleteDocument id imageURL collection child

/-- The references of the documents: the path of each with the image uploaded for it. -/
def refsOf (docs : Collection → List (Stored urls)) : Set (String × ImageData) :=
  {r | r ∈ [Collection.services, .masters, .disconts].flatMap
    (fun collection => (docs collection).map (fun d => (d.path, d.image)))}

/-- Every document's URL denotes a path that holds the image uploaded for the document. -/
def ImagesKept (s : CloudState urls) : Prop := ObjectStore.Resolves s.storage (refsOf s.docs)

end CloudState

/-- Any sequence of completed operations, from any state whose images are right. -/
def editors (urls : DownloadURL) : EventMachine (CloudState urls) EditorEvent where
  init := CloudState.ImagesKept
  step := CloudState.step

end Flamingo
