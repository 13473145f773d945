import Flamingo.Lib.Machine
import Flamingo.Foundation.Text
import Flamingo.DBManager.ModelDataBase
import Flamingo.DBManager.StorageManager

set_option autoImplicit false

/-! # The synchronisation of Firestore and Realm

`getDataDicontsOfFirebase`, `getDataCategorysOfFirebase`, `getDataMastersOfFirebase` and
`getDataServicesOfFirebase` fetch a collection; for each document without an object of its id a
download of its image is started, whose completion handler adds the object, and the objects whose
ids are not among the documents are deleted. The four functions and the four `saveData…ToRealm`
they call are one text with other names; only the one for masters looks at a document whose object
is there.

A state is the table of the class and the downloads that have been started. The presence test and
the insertion are two steps.

Swift compares the fields of a master up to canonical equivalence: `normal` is the normal form of a
text. The ids of documents are compared as texts in one normal form, and so are the fields where no
normal form is named.
-/

namespace Flamingo

/-- What the functions of a class have of their own. -/
structure RealmClass where
  Object : Type
  collection : String
  id : Object → String
  /-- the initialiser that the completion handler calls -/
  init : String → DocData → ImageData → Object
  /-- bytes that are no image: the handler traps (`UIImage(data: data)!`) or returns -/
  trapsOnBadImage : Bool
  /-- the test whether an object is to be fetched again, which may trap -/
  changed : Object → DocData → Option Bool
  id_init : ∀ documentID data image, id (init documentID data image) = documentID

inductive SyncClass
  | discont
  | category
  | master
  | service
  deriving DecidableEq, Repr

def discontClass : RealmClass where
  Object := Discont
  collection := "disconts"
  id := (·.id)
  init documentID data image := Discont.init documentID (data.string? "name")
    (data.string? "description") (data.string? "dateStart") (data.string? "dateEnd")
    (data.string? "imageURL") (some image)
  trapsOnBadImage := true
  changed _ _ := some false
  id_init _ _ _ := rfl

def categoryClass : RealmClass where
  Object := CategoryService
  collection := "categoryService"
  id := (·.id)
  init documentID data image := CategoryService.init documentID (data.string? "category")
    (data.string? "imageURL") (some image)
  trapsOnBadImage := true
  changed _ _ := some false
  id_init _ _ _ := rfl

/-- The test of `getDataMastersOfFirebase`: a field that is no string traps when it is looked at. -/
def masterChanged (normal : String → String) (master : Master) (data : DocData) : Option Bool := do
  -- `||` looks at the next field only if the fields before are the same
  let name ← data.string? "name"
  if normal master.name ≠ normal name then return true
  let imageURL ← data.string? "imageURL"
  if normal master.imageURL ≠ normal imageURL then return true
  let info ← data.string? "info"
  if normal master.info ≠ normal info then return true
  let profil ← data.string? "profil"
  return normal master.profil ≠ normal profil

def masterClassUpTo (normal : String → String) : RealmClass where
  Object := Master
  collection := "masters"
  id := (·.id)
  init documentID data image := Master.init documentID (data.string? "name")
    (data.string? "profil") (data.string? "info") (data.string? "imageURL") (some image)
  trapsOnBadImage := false
  changed := masterChanged normal
  id_init _ _ _ := rfl

def masterClass : RealmClass := masterClassUpTo id

def serviceClass : RealmClass where
  Object := Service
  collection := "services"
  id := (·.id)
  init documentID data image := Service.init (some documentID) (data.string? "name")
    (data.string? "place") (data.string? "time") (data.string? "discription")
    (data.string? "nameCategory") (some "") (data.string? "partOfTheBody")
    (data.string? "maleman") (data.string? "imageURL") (some image) (data.string? "idsMasters")
  trapsOnBadImage := false
  changed _ _ := some false
  id_init _ _ _ := rfl

def SyncClass.realmClassUpTo (normal : String → String) : SyncClass → RealmClass
  | .discont => discontClass
  | .category => categoryClass
  | .master => masterClassUpTo normal
  | .service => serviceClass

def SyncClass.realmClass (k : SyncClass) : RealmClass := k.realmClassUpTo id

/-! ## The steps -/

structure SyncState (c : RealmClass) where
  table : Table c.Object
  /-- the documents whose images are being downloaded -/
  pending : List Document
  /-- the documents of the snapshot that was processed last -/
  snapshot : Option (List Document)

/-- How a download ends; `image` is the answer of `UIImage(data:)`. -/
inductive Download
  | failed
  | bytes (data : ImageData) (image : Bool)

inductive SyncEvent
  | snapshot (documents : List Document)
  | snapshotError
  | complete (i : Nat) (download : Download)

namespace SyncState

variable {c : RealmClass}

/-- `saveData…ToRealm`: `isURL` is whether `URL(string:)` accepts a string; the source forces its
result. -/
def saveDataToRealm (isURL : String → Bool) (s : SyncState c) (document : Document) :
    Option (SyncState c) :=
  match document.data.string? "imageURL" with
  | none => some s
  | some imageURL =>
      if isURL imageURL then some { s with pending := s.pending ++ [document] } else none

/-- The objects with `id CONTAINS[c] documentID`. -/
def found (s : SyncState c) (document : Document) : List (Nat × c.Object) :=
  s.table.objects.filter (fun o => Text.containsC (c.id o.2) document.documentID)

/-- An object that was found: it is deleted and fetched again if it has changed. -/
def updateObject (isURL : String → Bool) (document : Document) (s : SyncState c)
    (o : Nat × c.Object) : Option (SyncState c) := do
  if ← c.changed o.2 document.data then
    -- the object is deleted before its download is started
    saveDataToRealm isURL { s with table := s.table.deleteObjectRealm o.1 } document
  else some s

/-- The body of the loop over the documents. -/
def processDocument (isURL : String → Bool) (s : SyncState c) (document : Document) :
    Option (SyncState c) :=
  if (s.found document).length = 0 then s.saveDataToRealm isURL document
  else (s.found document).foldlM (updateObject isURL document) s

/-- The loop that deletes the objects without a document. -/
def removeOld (s : SyncState c) (idFireBase : List String) : SyncState c :=
  { s with
    table := s.table.objects.foldl
      (fun t o => if !idFireBase.contains (c.id o.2) then t.deleteObjectRealm o.1 else t) s.table }

/-- The completion handler of `getDocuments`. -/
def processSnapshot (isURL : String → Bool) (s : SyncState c) (documents : List Document) :
    Option (SyncState c) := do
  let s ← documents.foldlM (processDocument isURL) s
  let s := s.removeOld (documents.map (·.documentID))
  some { s with snapshot := some documents }

/-- The completion handler of a download. -/
def complete (s : SyncState c) (i : Nat) (download : Download) : Option (SyncState c) := do
  let document ← s.pending[i]?
  let s := { s with pending := s.pending.eraseIdx i }
  match download with
  | .failed => some s
  | .bytes data image =>
      if image then
        some { s with
          table := s.table.saveObjectRealm (c.init document.documentID document.data data) }
      -- `UIImage(data: data)!` or `guard`
      else if c.trapsOnBadImage then none
      else some s

def step (isURL : String → Bool) (s : SyncState c) : SyncEvent → Option (SyncState c)
  | .snapshot documents => s.processSnapshot isURL documents
  | .snapshotError => some s
  | .complete i download => s.complete i download

/-- The ids of the objects, and those of the documents being downloaded. -/
def ids (s : SyncState c) : List String := s.table.objects.map (fun o => c.id o.2)

def pendingIds (s : SyncState c) : List String := s.pending.map (·.documentID)

end SyncState

/-- Any number of passes and downloads of a class, from any table with unique ids. -/
def sync (c : RealmClass) (isURL : String → Bool) : EventMachine (SyncState c) SyncEvent where
  init s := s.ids.Nodup ∧ s.pending = [] ∧ s.snapshot = none
  step := SyncState.step isURL

end Flamingo
