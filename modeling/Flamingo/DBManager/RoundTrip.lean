import Flamingo.DBManager.Sync
import Flamingo.DBManager.FirebaseManager
import Flamingo.DBManager.StartTimes
import Flamingo.PresentComments.PresentCommentsVC

set_option autoImplicit false

/-! # Publishing a record and reading it back

A record is published under hand-written keys and read back under hand-written keys. The document of
a service has no key for `comsmetology`, and the initialiser drops the start times that were written
with it; the other fields of the four classes come back as they were.
-/

namespace Flamingo

/-! ## Reading a document -/

/-- The object that `saveData…ToRealm` stores for a document when the download of its image
succeeds. -/
def readBack (c : RealmClass) (isURL : String → Bool) (document : Document) (image : ImageData) :
    Option c.Object := do
  let fetching ← SyncState.saveDataToRealm isURL (⟨Table.empty, [], none⟩ : SyncState c) document
  let fetched ← fetching.complete 0 (.bytes image true)
  let o ← fetched.table.objects.getLast?
  return o.2

/-- Reading traps exactly on an image URL that `URL(string:)` does not accept. -/
theorem readBack_eq (c : RealmClass) (isURL : String → Bool) (document : Document)
    (image : ImageData) {imageURL : String}
    (h : document.data.string? "imageURL" = some imageURL) :
    readBack c isURL document image
      = if isURL imageURL then some (c.init document.documentID document.data image) else none := by
  unfold readBack SyncState.saveDataToRealm
  simp only [h]
  by_cases hurl : isURL imageURL = true
  · simp [hurl, SyncState.complete, Table.empty, Table.saveObjectRealm]
  · simp [hurl]

/-- What is read of a document has the content of `original`. -/
def ReadsBack (c : RealmClass) (content : c.Object → c.Object) (isURL : String → Bool)
    (document : Document) (image : ImageData) (original : c.Object) : Prop :=
  ∃ object, readBack c isURL document image = some object ∧ content object = content original

theorem readsBack_iff {c : RealmClass} {content : c.Object → c.Object} {isURL : String → Bool}
    {documentID : String} {data : DocData} {image : ImageData} {original : c.Object}
    {imageURL : String} (h : data.string? "imageURL" = some imageURL) :
    ReadsBack c content isURL ⟨documentID, data⟩ image original ↔
      isURL imageURL = true ∧ content (c.init documentID data image) = content original := by
  unfold ReadsBack
  rw [readBack_eq c isURL ⟨documentID, data⟩ image h]
  by_cases hurl : isURL imageURL = true
  · rw [if_pos hurl, and_iff_right hurl]
    constructor
    · rintro ⟨object, hobject, hcontent⟩
      rw [Option.some.inj hobject]
      exact hcontent
    · intro hcontent
      exact ⟨_, rfl, hcontent⟩
  · rw [if_neg hurl]
    refine iff_of_false ?_ (fun hand => hurl hand.1)
    rintro ⟨object, hobject, -⟩
    cases hobject

theorem saveMasterToFirebase_imageURL (master : Master) :
    (saveMasterToFirebase master).string? "imageURL" = some master.imageURL := rfl

theorem init_saveMasterToFirebase (master : Master) (documentID : String) (image : ImageData) :
    masterClass.init documentID (saveMasterToFirebase master) image
      = { master with id := documentID, image := some image } := rfl

theorem saveDiscontToFirebase_imageURL (discont : Discont) :
    (saveDiscontToFirebase discont).string? "imageURL" = some discont.imageURL := rfl

theorem init_saveDiscontToFirebase (discont : Discont) (documentID : String) (image : ImageData) :
    discontClass.init documentID (saveDiscontToFirebase discont) image
      = { discont with id := documentID, image := some image } := rfl

theorem saveServiceToFirebase_imageURL (service : Service) (appTime : List Int) :
    (saveServiceToFirebase service appTime).string? "imageURL" = some service.imageURL := rfl

/-- Two fields of a service are lost on the way. -/
theorem init_saveServiceToFirebase (service : Service) (appTime : List Int) (documentID : String)
    (image : ImageData) :
    serviceClass.init documentID (saveServiceToFirebase service appTime) image
      = { service with
          id := documentID, image := some image, favorites := false
          comsmetology := "", appTime := [] } := rfl

/-! ## The round trip -/

/-- A service without what is not filled in by the editor. -/
def Service.content (service : Service) : Service :=
  { service with id := "", image := none, favorites := false }

def Master.content (master : Master) : Master := { master with id := "", image := none }

def Discont.content (discont : Discont) : Discont := { discont with id := "", image := none }

inductive Record
  | service (service : Service)
  | master (master : Master)
  | discont (discont : Discont)
  | comment (comment : Comment)

namespace Record

/-- A record is published at the time `now`, and what is read of its document is the record. -/
def RoundTrips (isURL : String → Bool) (now : Int) (documentID : String) (image : ImageData) :
    Record → Prop
  | .service s => ∃ appTime, createDataEntry now s.timeService = some appTime ∧
      ReadsBack serviceClass Service.content isURL
        ⟨documentID, saveServiceToFirebase s appTime⟩ image { s with appTime := appTime }
  | .master m =>
      ReadsBack masterClass Master.content isURL ⟨documentID, saveMasterToFirebase m⟩ image m
  | .discont d =>
      ReadsBack discontClass Discont.content isURL ⟨documentID, saveDiscontToFirebase d⟩ image d
  | .comment c =>
      HasTimestamp c.date ∧
        PresentCommentsVC.getAllComments [] [⟨documentID, saveCommentToFirebase c⟩] = ([c], true)

/-- A record that has nothing to lose: its image URL is accepted, a service has neither
`comsmetology` nor start times, and the date of a comment no more than microseconds. -/
def Lossless (isURL : String → Bool) : Record → Prop
  | .service s => isURL s.imageURL = true ∧ s.comsmetology = "" ∧ Unreadable s.timeService
  | .master m => isURL m.imageURL = true
  | .discont d => isURL d.imageURL = true
  | .comment c => HasTimestamp c.date ∧ ∃ n : Int, c.date * 1000000 = n

/-- The content of a service comes back if there is none of the two lost fields. -/
theorem content_init_service (s : Service) (appTime : List Int) (documentID : String)
    (image : ImageData) :
    Service.content (serviceClass.init documentID (saveServiceToFirebase s appTime) image)
        = Service.content { s with appTime := appTime } ↔
      s.comsmetology = "" ∧ appTime = [] := by
  rw [init_saveServiceToFirebase]
  constructor
  · intro hcontent
    have hcomsmetology : "" = s.comsmetology := congrArg Service.comsmetology hcontent
    have happTime : [] = appTime := congrArg Service.appTime hcontent
    exact ⟨hcomsmetology.symm, happTime.symm⟩
  · rintro ⟨hcomsmetology, rfl⟩
    rw [Service.content, Service.content, hcomsmetology]

end Record

def gelManicure : Service where
  nameService := "Маникюр"
  timeService := "1:00"
  comsmetology := "Гель"
  imageURL := "https://image"

end Flamingo
