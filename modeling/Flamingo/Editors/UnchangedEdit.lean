import Flamingo.DBManager.RoundTrip
import Flamingo.Editors.Images
import Flamingo.Editors.Forms

set_option autoImplicit false

/-! # Saving what was not changed

A record is opened in its editor and saved as it is. The editor of a service loads every text, but
not the masters, and publishes neither `comsmetology` nor the masters that it did not load; the
editors of masters and disconts publish what they have loaded.
-/

namespace Flamingo

variable {urls : DownloadURL}

/-- A record without its id and its image. -/
def Service.withoutImage (service : Service) : Service := { service.content with imageURL := "" }

def Master.withoutImage (master : Master) : Master := { master.content with imageURL := "" }

def Discont.withoutImage (discont : Discont) : Discont := { discont.content with imageURL := "" }

/-- A document with the id, that is read as `original` is. -/
def Publishes (c : RealmClass) (content : c.Object → c.Object) (docs : List (Stored urls))
    (documentID : String) (original : c.Object) : Prop :=
  ∃ d ∈ docs, d.document.documentID = documentID ∧
    content (c.init documentID d.document.data d.image) = content original

/-! ## The deletion of the old image -/

namespace CloudState

/-- `reference(forURL:)` is not called, or accepts the URL. -/
def Deletable (urls : DownloadURL) (imageURL : String) : Prop :=
  imageURL = "" ∨ ∃ path, urls.reference imageURL = some path

theorem deleteDocument_isSome_iff (s : CloudState urls) (id imageURL : String) (c : Collection)
    {child : String} (hchild : child ≠ "") :
    (∃ s', s.deleteDocument id imageURL c child = some s') ↔ Deletable urls imageURL := by
  unfold deleteDocument Deletable
  by_cases hempty : imageURL = ""
  · refine iff_of_true ⟨{ s with docs := s.without c id }, ?_⟩ (Or.inl hempty)
    exact if_neg (fun h => h.1 hempty)
  · rw [or_iff_right hempty]
    dsimp only
    rw [if_pos ⟨hempty, hchild⟩, deleteImageOfFireBaseStorage]
    cases urls.reference imageURL with
    | none => simp
    | some path => simp

/-- A document with another id is still there. -/
theorem mem_without_iff {s : CloudState urls} {c : Collection} {id : String} {d : Stored urls} :
    d ∈ s.without c id c ↔ d ∈ s.docs c ∧ d.document.documentID ≠ id := by
  rw [without, Function.update_self, List.mem_filter, bne_iff_ne]

theorem mem_add_iff {s : CloudState urls} {c : Collection} {d d' : Stored urls} :
    d' ∈ (s.add c d).docs c ↔ d' ∈ s.docs c ∨ d' = d := by
  show d' ∈ Function.update s.docs c (s.docs c ++ [d]) c ↔ _
  rw [Function.update_self, List.mem_append, List.mem_singleton]

end CloudState

/-! ## What is published -/

/-- A new document, whose id none of the old ones has, is the one that is read. -/
theorem publishes_new {c : RealmClass} {content : c.Object → c.Object}
    {old docs : List (Stored urls)} {original : c.Object} {d : Stored urls}
    (hfresh : ∀ d' ∈ old, d'.document.documentID ≠ d.document.documentID) (hmem : d ∈ docs)
    (hdocs : ∀ d' ∈ docs, d' ∈ old ∨ d' = d) :
    Publishes c content docs d.document.documentID original ↔
      content (c.init d.document.documentID d.document.data d.image) = content original := by
  constructor
  · rintro ⟨d', hd', hid', hcontent⟩
    rcases hdocs d' hd' with hold | rfl
    · exact absurd hid' (hfresh d' hold)
    · exact hcontent
  · intro hcontent
    exact ⟨d, hmem, rfl, hcontent⟩

/-- What is read of a master's document whose fields were replaced. -/
theorem init_updataMaster (master : Master) (data : DocData) (documentID : String)
    (image : ImageData) :
    masterClass.init documentID (updataMaster master data) image
      = { master with id := documentID, image := some image } := by
  simp [masterClass, masterClassUpTo, Master.init, updataMaster, DocData.string?_set, Value.asString]

/-! ## The save of an edit -/

namespace AddNewServiceVC

/-- An edit comes to its end if the start times do and the old image can be deleted. -/
theorem saveAction_isSome_iff {now : Int} {s : CloudState urls}
    {serviceUpdate serviceNew : Service} {uploadData : ImageData} {documentID : String}
    (hid : serviceUpdate.id ≠ "") :
    (∃ s', saveAction now s serviceUpdate serviceNew (some uploadData) documentID = some s') ↔
      Bookable serviceNew.timeService ∧ CloudState.Deletable urls serviceUpdate.imageURL := by
  have hedit := not_isEmpty_of_ne hid
  simp only [saveAction, urls.downloadURL_ne_empty, if_false, hedit, if_true,
    Option.bind_eq_bind, Option.bind_eq_some_iff]
  rw [← returns_iff_bookable now, returns_iff, Option.ne_none_iff_exists']
  have hchild : "service_images" ≠ "" := by decide
  constructor
  · rintro ⟨s', appTime, htimes, hdelete⟩
    exact ⟨⟨appTime, htimes⟩,
      (CloudState.deleteDocument_isSome_iff _ _ _ _ hchild).mp ⟨s', hdelete⟩⟩
  · rintro ⟨⟨appTime, htimes⟩, hdeletable⟩
    obtain ⟨s', hdelete⟩ :=
      (CloudState.deleteDocument_isSome_iff _ _ _ _ hchild).mpr hdeletable
    exact ⟨s', appTime, htimes, hdelete⟩

/-- The new document is added, then the old one is deleted. -/
theorem publishes_saveAction {now : Int} {s s' : CloudState urls}
    {serviceUpdate serviceNew : Service} {uploadData : ImageData} {documentID : String}
    {content : Service → Service} {original : Service}
    (hid : serviceUpdate.id ≠ "") (hne : documentID ≠ serviceUpdate.id)
    (hfresh : ∀ d ∈ s.docs .services, d.document.documentID ≠ documentID)
    (h : saveAction now s serviceUpdate serviceNew (some uploadData) documentID = some s') :
    Publishes serviceClass content (s'.docs .services) documentID original ↔
      content { serviceNew with
        id := documentID, image := some uploadData, favorites := false
        imageURL := urls.downloadURL (imagePath serviceNew.nameService)
        comsmetology := "", appTime := [] } = content original := by
  have hedit := not_isEmpty_of_ne hid
  simp only [saveAction, urls.downloadURL_ne_empty, if_false, hedit, if_true,
    Option.bind_eq_bind, Option.bind_eq_some_iff] at h
  obtain ⟨appTime, -, hdelete⟩ := h
  obtain ⟨hdocs, -⟩ := CloudState.deleteDocument_cases hdelete
  rw [hdocs]
  exact publishes_new hfresh
    (CloudState.mem_without_iff.mpr ⟨CloudState.mem_add_iff.mpr (Or.inr rfl), hne⟩)
    (fun d' hd' => CloudState.mem_add_iff.mp (CloudState.mem_without_iff.mp hd').1)

end AddNewServiceVC

namespace AddNewDiscontVC

theorem saveDiscont_isSome_iff {s : CloudState urls} {discontUpdate discont : Discont}
    {uploadData : ImageData} {documentID : String} (hid : discontUpdate.id ≠ "") :
    (∃ s', saveDiscont s discontUpdate discont (some uploadData) documentID = some s') ↔
      CloudState.Deletable urls discontUpdate.imageURL := by
  have hedit := not_isEmpty_of_ne hid
  have hchild : "discont_images" ≠ "" := by decide
  rw [← CloudState.deleteDocument_isSome_iff s discontUpdate.id _ .disconts hchild]
  simp only [saveDiscont, hedit, if_true, Option.map_eq_some_iff]
  constructor
  · rintro ⟨s', t, ht, -⟩
    exact ⟨t, ht⟩
  · rintro ⟨t, ht⟩
    exact ⟨_, t, ht, rfl⟩

/-- The old document is deleted, then the new one is added. -/
theorem publishes_saveDiscont {s s' : CloudState urls} {discontUpdate discont : Discont}
    {uploadData : ImageData} {documentID : String} {content : Discont → Discont}
    {original : Discont} (hid : discontUpdate.id ≠ "")
    (hfresh : ∀ d ∈ s.docs .disconts, d.document.documentID ≠ documentID)
    (h : saveDiscont s discontUpdate discont (some uploadData) documentID = some s') :
    Publishes discontClass content (s'.docs .disconts) documentID original ↔
      content { discont with
        id := documentID, image := some uploadData
        imageURL := urls.downloadURL (imagePath discont.name) } = content original := by
  have hedit := not_isEmpty_of_ne hid
  simp only [saveDiscont, hedit, if_true, Option.map_eq_some_iff] at h
  obtain ⟨t, hdelete, rfl⟩ := h
  obtain ⟨hdocs, -⟩ := CloudState.deleteDocument_cases hdelete
  have hurl : (urls.downloadURL (imagePath discont.name)).isEmpty = false := by
    simpa using urls.downloadURL_ne_empty _
  simp only [saveDataToFireBase, hurl, Bool.false_eq_true, if_false]
  refine publishes_new hfresh (CloudState.mem_add_iff.mpr (Or.inr rfl)) ?_
  intro d' hd'
  refine (CloudState.mem_add_iff.mp hd').imp_left (fun hold => ?_)
  rw [CloudState.putData, hdocs] at hold
  exact (CloudState.mem_without_iff.mp hold).1

end AddNewDiscontVC

namespace AddNewMasterVC

theorem saveMaster_isSome_iff {s : CloudState urls} {masterUpdate master : Master}
    {uploadData : ImageData} {documentID : String} (hid : masterUpdate.id ≠ "") :
    (∃ s', saveMaster s masterUpdate master (some uploadData) documentID = some s') ↔
      ∃ path, urls.reference masterUpdate.imageURL = some path := by
  have hedit := not_isEmpty_of_ne hid
  simp only [saveMaster, urls.downloadURL_ne_empty, if_false, hedit, if_true,
    CloudState.updataMaster, CloudState.deleteImageOfFireBaseStorage, Option.map_eq_some_iff]
  constructor
  · rintro ⟨s', path, hpath, -⟩
    exact ⟨path, hpath⟩
  · rintro ⟨path, hpath⟩
    exact ⟨_, path, hpath, rfl⟩

/-- The fields of the document are replaced. -/
theorem publishes_saveMaster {s s' : CloudState urls} {masterUpdate master : Master}
    {uploadData : ImageData} {documentID : String} {content : Master → Master} {original : Master}
    (hid : masterUpdate.id ≠ "")
    (hstored : ∃ d ∈ s.docs .masters, d.document.documentID = masterUpdate.id)
    (h : saveMaster s masterUpdate master (some uploadData) documentID = some s') :
    Publishes masterClass content (s'.docs .masters) masterUpdate.id original ↔
      content { master with
        id := masterUpdate.id, image := some uploadData
        imageURL := urls.downloadURL (imagePath master.name) } = content original := by
  have hedit := not_isEmpty_of_ne hid
  simp only [saveMaster, urls.downloadURL_ne_empty, if_false, hedit, if_true,
    CloudState.updataMaster, CloudState.deleteImageOfFireBaseStorage, Option.map_eq_some_iff] at h
  obtain ⟨path, -, rfl⟩ := h
  simp only [Publishes, Function.update_self, List.mem_map]
  constructor
  · rintro ⟨d', ⟨d, -, rfl⟩, hid', hcontent⟩
    by_cases hd : d.document.documentID = masterUpdate.id
    · rw [if_pos (by simpa using hd), Stored.updata, init_updataMaster] at hcontent
      exact hcontent
    · rw [if_neg (by simpa using hd)] at hid'
      exact absurd hid' hd
  · intro hcontent
    obtain ⟨d, hd, hdid⟩ := hstored
    refine ⟨_, ⟨d, hd, rfl⟩, ?_⟩
    rw [if_pos (by simpa using hdid), Stored.updata, init_updataMaster]
    exact ⟨hdid, hcontent⟩

end AddNewMasterVC

/-! ## Each editor -/

/-- What the screens are opened with: the storyboard, the services in Realm, the text of the picker's
date and the time of the save. -/
structure Opening where
  board : Storyboard
  realm : Realm
  objects : Results Service
  date : String
  now : Int

inductive Edited
  | service (serviceUpdate : Service)
  | master (masterUpdate : Master)
  | discont (discontUpdate : Discont)

namespace Edited

def id : Edited → String
  | .service u => u.id
  | .master u => u.id
  | .discont u => u.id

def collection : Edited → Collection
  | .service _ => .services
  | .master _ => .masters
  | .discont _ => .disconts

/-- The editor is opened for the record, and the save button is pressed. -/
def saveEvent (o : Opening) (documentID : String) : Edited → EditorEvent
  | .service u => (AddNewServiceVC.opened o.board u).saveEvent o.now documentID
  | .master u => (AddNewMasterVC.opened o.board o.realm o.objects u).saveEvent documentID
  | .discont u => (AddNewDiscontVC.opened o.board o.date u).saveEvent documentID

/-- The record is read of a document: of a new one, or for a master of its own. -/
def PublishedIn (s : CloudState urls) (documentID : String) : Edited → Prop
  | .service u => Publishes serviceClass Service.withoutImage (s.docs .services) documentID u
  | .master u => Publishes masterClass Master.withoutImage (s.docs .masters) u.id u
  | .discont u => Publishes discontClass Discont.withoutImage (s.docs .disconts) documentID u

/-- The save comes to its end, and what it has published is the record. -/
def ChangesNothing (o : Opening) (s : CloudState urls) (documentID : String) (r : Edited) : Prop :=
  ∃ s', s.step (r.saveEvent o documentID) = some s' ∧ r.PublishedIn s' documentID

theorem changesNothing_of_save {o : Opening} {s : CloudState urls} {documentID : String}
    {r : Edited} {ends agrees : Prop}
    (hsave : (∃ s', s.step (r.saveEvent o documentID) = some s') ↔ ends)
    (hread : ∀ s', s.step (r.saveEvent o documentID) = some s' →
      (r.PublishedIn s' documentID ↔ agrees)) :
    r.ChangesNothing o s documentID ↔ ends ∧ agrees := by
  rw [← hsave]
  constructor
  · rintro ⟨s', hs', hpublished⟩
    exact ⟨⟨s', hs'⟩, (hread s' hs').mp hpublished⟩
  · rintro ⟨⟨s', hs'⟩, hagrees⟩
    exact ⟨s', hs', (hread s' hs').mpr hagrees⟩

/-- A record that an unchanged edit leaves as it is: the old image can be deleted, and a service has
a duration that comes back, no masters and neither of the fields that are lost. -/
def Unaffected (urls : DownloadURL) : Edited → Prop
  | .service u => Bookable u.timeService ∧ CloudState.Deletable urls u.imageURL ∧
      u.comsmetology = "" ∧ u.idsMasters = "" ∧ u.appTime = []
  | .master u => ∃ path, urls.reference u.imageURL = some path
  | .discont u => CloudState.Deletable urls u.imageURL

end Edited


/-- A service that is collected of an untouched screen is the service, but for what is lost. -/
theorem withoutImage_collected (u : Service) (documentID imageURL : String) (image : ImageData) :
    Service.withoutImage { AddNewServiceVC.collected u with
        id := documentID, image := some image, favorites := false
        imageURL := imageURL, comsmetology := "", appTime := [] } = u.withoutImage ↔
      u.comsmetology = "" ∧ u.idsMasters = "" ∧ u.appTime = [] := by
  constructor
  · intro hsame
    have hcomsmetology : "" = u.comsmetology := congrArg Service.comsmetology hsame
    have hids : "" = u.idsMasters := congrArg Service.idsMasters hsame
    have happTime : [] = u.appTime := congrArg Service.appTime hsame
    exact ⟨hcomsmetology.symm, hids.symm, happTime.symm⟩
  · rintro ⟨hcomsmetology, hids, happTime⟩
    simp only [AddNewServiceVC.collected, Service.withoutImage, Service.content, hcomsmetology,
      hids, happTime]

theorem changesNothing_service (o : Opening) (s : CloudState urls) (documentID : String)
    {u : Service} (hid : u.id ≠ "") (hne : documentID ≠ u.id)
    (hfresh : ∀ d ∈ s.docs .services, d.document.documentID ≠ documentID) :
    (Edited.service u).ChangesNothing o s documentID ↔ (Edited.service u).Unaffected urls := by
  obtain ⟨uploadData, hevent⟩ := AddNewServiceVC.saveEvent_opened o.board o.now documentID hid
  have hstep : s.step ((Edited.service u).saveEvent o documentID)
      = AddNewServiceVC.saveAction o.now s u (AddNewServiceVC.collected u) (some uploadData)
          documentID := by
    rw [Edited.saveEvent, hevent, CloudState.step, if_neg hne]
  rw [Edited.Unaffected, ← and_assoc]
  refine Edited.changesNothing_of_save ?_ ?_
  · rw [hstep]
    exact AddNewServiceVC.saveAction_isSome_iff hid
  · intro s' hs'
    rw [hstep] at hs'
    exact (AddNewServiceVC.publishes_saveAction hid hne hfresh hs').trans
      (withoutImage_collected u documentID _ uploadData)

/-- **Masters** keep what they have. -/
theorem changesNothing_master (o : Opening) (s : CloudState urls) (documentID : String)
    {u : Master} (hid : u.id ≠ "")
    (hstored : ∃ d ∈ s.docs .masters, d.document.documentID = u.id) :
    (Edited.master u).ChangesNothing o s documentID ↔ (Edited.master u).Unaffected urls := by
  obtain ⟨uploadData, hevent⟩ :=
    AddNewMasterVC.saveEvent_opened o.board o.realm o.objects documentID hid
  have hstep : s.step ((Edited.master u).saveEvent o documentID)
      = AddNewMasterVC.saveMaster s u (AddNewMasterVC.collected u) (some uploadData)
          documentID := by
    rw [Edited.saveEvent, hevent, CloudState.step]
  rw [Edited.Unaffected, ← and_true (∃ path, _)]
  refine Edited.changesNothing_of_save ?_ ?_
  · rw [hstep]
    exact AddNewMasterVC.saveMaster_isSome_iff hid
  · intro s' hs'
    rw [hstep] at hs'
    exact (AddNewMasterVC.publishes_saveMaster hid hstored hs').trans (iff_of_true rfl trivial)

/-- **Disconts** keep what they have. -/
theorem changesNothing_discont (o : Opening) (s : CloudState urls) (documentID : String)
    {u : Discont} (hid : u.id ≠ "")
    (hfresh : ∀ d ∈ s.docs .disconts, d.document.documentID ≠ documentID) :
    (Edited.discont u).ChangesNothing o s documentID ↔ (Edited.discont u).Unaffected urls := by
  obtain ⟨uploadData, hevent⟩ := AddNewDiscontVC.saveEvent_opened o.board o.date documentID hid
  have hstep : s.step ((Edited.discont u).saveEvent o documentID)
      = AddNewDiscontVC.saveDiscont s u (AddNewDiscontVC.collected u) (some uploadData)
          documentID := by
    rw [Edited.saveEvent, hevent, CloudState.step]
  rw [Edited.Unaffected, ← and_true (CloudState.Deletable urls u.imageURL)]
  refine Edited.changesNothing_of_save ?_ ?_
  · rw [hstep]
    exact AddNewDiscontVC.saveDiscont_isSome_iff hid
  · intro s' hs'
    rw [hstep] at hs'
    exact (AddNewDiscontVC.publishes_saveDiscont hid hfresh hs').trans (iff_of_true rfl trivial)

def assigned (idsMasters : String) : Service := { storedManicure "1" with idsMasters }

/-- The service alone in the cloud. -/
def cloudOf (idsMasters : String) : CloudState schemeURL :=
  emptyCloud.add .services ⟨⟨"1", saveServiceToFirebase (assigned idsMasters) []⟩,
    AddNewServiceVC.imagePath "manicure", [1], rfl⟩

theorem cloudOf_stored (idsMasters : String) :
    ∃ d ∈ (cloudOf idsMasters).docs .services, d.document.documentID = "1" :=
  ⟨_, CloudState.mem_add_iff.mpr (Or.inr rfl), rfl⟩

theorem cloudOf_fresh (idsMasters : String) :
    ∀ d ∈ (cloudOf idsMasters).docs .services, d.document.documentID ≠ "2" := by
  intro d hd
  rcases CloudState.mem_add_iff.mp hd with hold | rfl
  · exact absurd hold List.not_mem_nil
  · show "1" ≠ "2"
    decide

def firstOfDecember : Opening := ⟨⟨[0], fun _ => ""⟩, plainRealm, [], "01.12", 0⟩

end Flamingo
