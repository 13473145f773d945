import Flamingo.DBManager.Firestore

set_option autoImplicit false

/-! # The classes stored in Realm

The stored properties of the Realm classes with the defaults of the source, and the
convenience initialisers, which replace a missing string by the empty one.
-/

namespace Flamingo

/-- The bytes of an image. -/
abbrev ImageData := List UInt8

structure Service where
  id : String := ""
  nameService : String := ""
  placeService : String := ""
  timeService : String := ""
  serviceDescription : String := ""
  nameCategoryService : String := ""
  comsmetology : String := ""
  partOfTheBody : String := ""
  maleMan : String := ""
  imageURL : String := ""
  image : Option ImageData := none
  favorites : Bool := false
  idsMasters : String := ""
  appTime : List Int := []
  deriving DecidableEq, Repr

/-- The initialiser takes a list of times too and drops it: `appTime` stays empty. -/
def Service.init (idService nameService placeService timeService serviceDescription
    nameCategoryService comsmetology partOfTheBody maleMan imageURL : Option String)
    (image : Option ImageData) (idsMasters : Option String) : Service where
  id := idService.getD ""
  nameService := nameService.getD ""
  placeService := placeService.getD ""
  timeService := timeService.getD ""
  serviceDescription := serviceDescription.getD ""
  nameCategoryService := nameCategoryService.getD ""
  comsmetology := comsmetology.getD ""
  partOfTheBody := partOfTheBody.getD ""
  maleMan := maleMan.getD ""
  imageURL := imageURL.getD ""
  image := image
  idsMasters := idsMasters.getD ""

structure Master where
  id : String := ""
  name : String := ""
  profil : String := ""
  info : String := ""
  imageURL : String := ""
  image : Option ImageData := none
  deriving DecidableEq, Repr

def Master.init (id : String) (name profil info imageURL : Option String)
    (image : Option ImageData) : Master where
  id := id
  name := name.getD ""
  profil := profil.getD ""
  info := info.getD ""
  imageURL := imageURL.getD ""
  image := image

structure Discont where
  id : String := ""
  name : String := ""
  descriptionDiscont : String := ""
  dateStart : String := ""
  dateEnd : String := ""
  imageURL : String := ""
  image : Option ImageData := none
  deriving DecidableEq, Repr

def Discont.init (id : String) (name description dateStart dateEnd imageURL : Option String)
    (image : Option ImageData) : Discont where
  id := id
  name := name.getD ""
  descriptionDiscont := description.getD ""
  dateStart := dateStart.getD ""
  dateEnd := dateEnd.getD ""
  imageURL := imageURL.getD ""
  image := image

structure CategoryService where
  id : String := ""
  category : String := ""
  imageURL : String := ""
  image : Option ImageData := none
  deriving DecidableEq, Repr

def CategoryService.init (id : String) (category imageURL : Option String)
    (image : Option ImageData) : CategoryService where
  id := id
  category := category.getD ""
  imageURL := imageURL.getD ""
  image := image

structure ServiceEntry where
  id : String := ""
  serviceName : String := ""
  nameClient : String := ""
  numberPhoneClient : String := ""
  dttmEntry : Int
  idMaster : String := ""
  serviceIdDocument : String := ""
  price : String := ""
  deriving DecidableEq, Repr

structure Person where
  name : String := ""
  numberPhone : String := ""
  admin : Bool := false
  numberVerif : Bool := false
  deriving DecidableEq, Repr

end Flamingo
