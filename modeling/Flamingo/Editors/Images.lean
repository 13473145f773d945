import Flamingo.Editors.Cloud

set_option autoImplicit false

/-! # The images of the documents

The path of an image is made of the name of its record alone, so two records of one name, or two
without a name, share it: the second upload replaces the image of the first, and the deletion of
one removes the image of both. The editors for services and masters delete the old image last, so
an edit that keeps the name deletes the image it has just uploaded; the editor for disconts deletes
first.

An operation keeps the images exactly if the paths it writes and deletes belong to no other
document, and an edit of a service or a master does not delete the path it has uploaded to
(`step_imagesKept_iff`).
-/

namespace Flamingo

variable {urls : DownloadURL}

namespace CloudState

/-! ## The references after an operation -/

theorem mem_refsOf {docs : Collection → List (Stored urls)} {r : String × ImageData} :
    r ∈ refsOf docs ↔ ∃ collection, ∃ d ∈ docs collection, (d.path, d.image) = r := by
  simp only [refsOf, Set.mem_ofPred_eq, List.mem_flatMap, List.mem_map]
  constructor
  · rintro ⟨collection, -, hd⟩
    exact ⟨collection, hd⟩
  · rintro ⟨collection, hd⟩
    exact ⟨collection, by cases collection <;> simp, hd⟩

/-- Changing one collection changes its references only. -/
theorem mem_refsOf_update {docs : Collection → List (Stored urls)} {c : Collection}
    {l : List (Stored urls)} {r : String × ImageData} :
    r ∈ refsOf (Function.update docs c l) ↔
      (∃ d ∈ l, (d.path, d.image) = r) ∨
        ∃ c', c' ≠ c ∧ ∃ d ∈ docs c', (d.path, d.image) = r := by
  rw [mem_refsOf]
  constructor
  · rintro ⟨c', d, hd, heq⟩
    by_cases hc : c' = c
    · subst hc
      rw [Function.update_self] at hd
      exact Or.inl ⟨d, hd, heq⟩
    · rw [Function.update_of_ne hc] at hd
      exact Or.inr ⟨c', hc, d, hd, heq⟩
  · rintro (⟨d, hd, heq⟩ | ⟨c', hc, d, hd, heq⟩)
    · exact ⟨c, d, by rwa [Function.update_self], heq⟩
    · exact ⟨c', d, by rwa [Function.update_of_ne hc], heq⟩

theorem refsOf_without_subset (s : CloudState urls) (c : Collection) (id : String) :
    refsOf (s.without c id) ⊆ refsOf s.docs := by
  intro r hr
  rcases mem_refsOf_update.mp hr with ⟨d, hd, heq⟩ | ⟨c', -, hd⟩
  · exact mem_refsOf.mpr ⟨c, d, List.mem_of_mem_filter hd, heq⟩
  · exact mem_refsOf.mpr ⟨c', hd⟩

theorem refsOf_add (s : CloudState urls) (c : Collection) (d : Stored urls) :
    refsOf (s.add c d).docs = insert (d.path, d.image) (refsOf s.docs) := by
  ext r
  rw [Set.mem_insert_iff]
  simp only [add, mem_refsOf_update, List.mem_append, List.mem_singleton, or_and_right,
    exists_or, exists_eq_left]
  rw [mem_refsOf]
  constructor
  · rintro ((hd | heq) | ⟨c', -, hd⟩)
    · exact Or.inr ⟨c, hd⟩
    · exact Or.inl heq.symm
    · exact Or.inr ⟨c', hd⟩
  · rintro (heq | ⟨c', hd⟩)
    · exact Or.inl (Or.inr heq.symm)
    · by_cases hc : c' = c
      · exact Or.inl (Or.inl (hc ▸ hd))
      · exact Or.inr ⟨c', hc, hd⟩

/-- A new document outlives the deletion of another one. -/
theorem refsOf_add_without (s : CloudState urls) (c : Collection) (d : Stored urls) {id : String}
    (hid : d.document.documentID ≠ id) :
    refsOf ((s.add c d).without c id) = insert (d.path, d.image) (refsOf (s.without c id)) := by
  have hcomm : (s.add c d).without c id
      = (CloudState.add { s with docs := s.without c id } c d).docs := by
    simp only [without, add, Function.update_self, Function.update_idem, List.filter_append]
    congr 2
    simp [hid]
  rw [hcomm, refsOf_add]

theorem refsOf_updata (s : CloudState urls) {master : Master} {id path : String}
    {uploadData : ImageData} (h : master.imageURL = urls.downloadURL path) :
    refsOf (Function.update s.docs .masters ((s.docs .masters).map (fun d : Stored urls =>
        if d.document.documentID == id then d.updata master path uploadData h else d)))
      = {r | r = (path, uploadData) ∧ ∃ d ∈ s.docs .masters, d.document.documentID = id} ∪
        refsOf (s.without .masters id) := by
  ext r
  rw [Set.mem_union, Set.mem_ofPred_eq, mem_refsOf_update, without, mem_refsOf_update, ← or_assoc]
  apply or_congr_left
  -- a document of the masters is the updated one or another one
  constructor
  · rintro ⟨d', hd', heq⟩
    obtain ⟨d, hd, rfl⟩ := List.mem_map.mp hd'
    by_cases hid : d.document.documentID = id
    · rw [if_pos (by simpa using hid)] at heq
      exact Or.inl ⟨heq.symm, d, hd, hid⟩
    · rw [if_neg (by simpa using hid)] at heq
      exact Or.inr ⟨d, by simpa [hid] using hd, heq⟩
  · rintro (⟨rfl, d, hd, hid⟩ | ⟨d, hd, heq⟩)
    · refine ⟨_, List.mem_map_of_mem hd, ?_⟩
      rw [if_pos (by simpa using hid)]
      rfl
    · obtain ⟨hd, hid⟩ := List.mem_filter.mp hd
      refine ⟨_, List.mem_map_of_mem hd, ?_⟩
      rw [if_neg (by simpa using hid)]
      exact heq

/-! ## What one operation does -/

/-- The path that `deleteDocument` deletes. -/
def deletedPath (urls : DownloadURL) (imageURL child : String) : Option String :=
  if imageURL ≠ "" ∧ child ≠ "" then urls.reference imageURL else none

theorem deleteDocument_cases {s s' : CloudState urls} {id imageURL child : String}
    {c : Collection} (h : s.deleteDocument id imageURL c child = some s') :
    s'.docs = s.without c id ∧
      ((deletedPath urls imageURL child = none ∧ s'.storage = s.storage) ∨
        ∃ q, deletedPath urls imageURL child = some q ∧
          s'.storage = ObjectStore.remove s.storage q) := by
  unfold deleteDocument at h
  simp only at h
  by_cases hboth : imageURL ≠ "" ∧ child ≠ ""
  · rw [if_pos hboth] at h
    obtain ⟨q, hq, rfl⟩ := Option.map_eq_some_iff.mp h
    exact ⟨rfl, Or.inr ⟨q, by rw [deletedPath, if_pos hboth, hq], rfl⟩⟩
  · rw [if_neg hboth] at h
    obtain rfl := Option.some.inj h
    exact ⟨rfl, Or.inl ⟨by rw [deletedPath, if_neg hboth], rfl⟩⟩

theorem saveAction_cases {now : Int} {s s' : CloudState urls} {serviceUpdate serviceNew : Service}
    {uploadData : ImageData} {documentID : String}
    (h : AddNewServiceVC.saveAction now s serviceUpdate serviceNew (some uploadData) documentID
      = some s') :
    ∃ d : Stored urls, d.path = AddNewServiceVC.imagePath serviceNew.nameService ∧
      d.image = uploadData ∧ d.document.documentID = documentID ∧
      ((serviceUpdate.id = "" ∧ s' = (s.putData d.path d.image).add .services d) ∨
        (serviceUpdate.id ≠ "" ∧ ((s.putData d.path d.image).add .services d).deleteDocument
          serviceUpdate.id serviceUpdate.imageURL .services "service_images" = some s')) := by
  simp only [AddNewServiceVC.saveAction, urls.downloadURL_ne_empty, if_false,
    Option.bind_eq_bind] at h
  obtain ⟨appTime, -, hsave⟩ := Option.bind_eq_some_iff.mp h
  refine ⟨⟨⟨documentID, saveServiceToFirebase { serviceNew with
    imageURL := urls.downloadURL (AddNewServiceVC.imagePath serviceNew.nameService) } appTime⟩,
    AddNewServiceVC.imagePath serviceNew.nameService, uploadData, rfl⟩, rfl, rfl, rfl, ?_⟩
  split_ifs at hsave with hedit
  · exact Or.inr ⟨by simpa using hedit, hsave⟩
  · exact Or.inl ⟨by simpa using hedit, (Option.some.inj hsave).symm⟩

theorem saveDataToFireBase_cases (s : CloudState urls) (discont : Discont)
    (uploadData : ImageData) (documentID : String) :
    ∃ d : Stored urls, d.path = AddNewDiscontVC.imagePath discont.name ∧ d.image = uploadData ∧
      AddNewDiscontVC.saveDataToFireBase s discont (some uploadData) documentID
        = (s.putData d.path d.image).add .disconts d := by
  refine ⟨⟨⟨documentID, saveDiscontToFirebase { discont with
    id := "", imageURL := urls.downloadURL (AddNewDiscontVC.imagePath discont.name) }⟩,
    AddNewDiscontVC.imagePath discont.name, uploadData, rfl⟩, rfl, rfl, ?_⟩
  have hurl : (urls.downloadURL (AddNewDiscontVC.imagePath discont.name)).isEmpty = false := by
    simpa using urls.downloadURL_ne_empty _
  simp only [AddNewDiscontVC.saveDataToFireBase, hurl, Bool.false_eq_true, if_false]

/-! ## The condition -/

/-- The operation writes and deletes no path of another document (a path may be written that holds
the same image), and an edit of a service or a master deletes another path than it uploads to. -/
def Unshared (s : CloudState urls) : EditorEvent → Prop
  | .saveService _ serviceUpdate serviceNew image _ => ∀ uploadData ∈ image,
      let path := AddNewServiceVC.imagePath serviceNew.nameService
      if serviceUpdate.id = "" then ObjectStore.OwnsOnly (refsOf s.docs) path uploadData
      else
        let others := refsOf (s.without .services serviceUpdate.id)
        ObjectStore.OwnsOnly others path uploadData ∧
          ∀ q ∈ deletedPath urls serviceUpdate.imageURL "service_images",
            path ≠ q ∧ ObjectStore.Unreferenced others q
  | .saveMaster masterUpdate master image _ => ∀ uploadData ∈ image,
      let path := AddNewMasterVC.imagePath master.name
      if masterUpdate.id = "" then ObjectStore.OwnsOnly (refsOf s.docs) path uploadData
      else
        let others := refsOf (s.without .masters masterUpdate.id)
        ObjectStore.OwnsOnly others path uploadData ∧
          ∀ q ∈ urls.reference masterUpdate.imageURL,
            ((∃ d ∈ s.docs .masters, d.document.documentID = masterUpdate.id) → path ≠ q) ∧
              ObjectStore.Unreferenced others q
  | .saveDiscont discontUpdate discont image _ =>
      let path := AddNewDiscontVC.imagePath discont.name
      if discontUpdate.id = "" then
        ∀ uploadData ∈ image, ObjectStore.OwnsOnly (refsOf s.docs) path uploadData
      else
        let others := refsOf (s.without .disconts discontUpdate.id)
        let deleted := deletedPath urls discontUpdate.imageURL "discont_images"
        match image with
        | none => ∀ q ∈ deleted, ObjectStore.Unreferenced others q
        | some uploadData => ObjectStore.OwnsOnly others path uploadData ∧
            ∀ q ∈ deleted, ∀ r ∈ others, r.1 = q → q = path
  | .deleteDocument id imageURL collection child =>
      ∀ q ∈ deletedPath urls imageURL child,
        ObjectStore.Unreferenced (refsOf (s.without collection id)) q

/-! ## One operation -/

theorem imagesKept_add {s : CloudState urls} (hi : s.ImagesKept) (c : Collection)
    (d : Stored urls) :
    ((s.putData d.path d.image).add c d).ImagesKept ↔
      ObjectStore.OwnsOnly (refsOf s.docs) d.path d.image := by
  rw [ImagesKept, refsOf_add, ObjectStore.resolves_insert]
  simp only [putData, add, ObjectStore.put_self, true_and]
  exact ObjectStore.resolves_put_iff hi

theorem imagesKept_deleteDocument {s s' : CloudState urls} (hi : s.ImagesKept)
    {id imageURL child : String} {c : Collection}
    (h : s.deleteDocument id imageURL c child = some s') :
    s'.ImagesKept ↔ ∀ q ∈ deletedPath urls imageURL child,
      ObjectStore.Unreferenced (refsOf (s.without c id)) q := by
  have hrest := hi.mono (refsOf_without_subset s c id)
  obtain ⟨hdocs, ⟨hnone, hstorage⟩ | ⟨q, hq, hstorage⟩⟩ := deleteDocument_cases h
  · simp only [ImagesKept, hdocs, hstorage, hnone, Option.not_mem_none, false_implies,
      implies_true, iff_true]
    exact hrest
  · simp only [ImagesKept, hdocs, hstorage, hq, Option.mem_some, forall_eq']
    exact ObjectStore.resolves_remove_iff hrest

theorem imagesKept_saveService {now : Int} {s s' : CloudState urls} (hi : s.ImagesKept)
    {serviceUpdate serviceNew : Service} {image : Option ImageData} {documentID : String}
    (hnew : documentID ≠ serviceUpdate.id)
    (h : AddNewServiceVC.saveAction now s serviceUpdate serviceNew image documentID = some s') :
    s'.ImagesKept ↔
      s.Unshared (.saveService now serviceUpdate serviceNew image documentID) := by
  cases image with
  | none =>
      obtain rfl := Option.some.inj h
      simp [Unshared, hi]
  | some uploadData =>
      simp only [Unshared, Option.mem_some, forall_eq']
      obtain ⟨d, hpath, himage, hid, ⟨hadd, rfl⟩ | ⟨hedit, hdelete⟩⟩ := saveAction_cases h
      · rw [if_pos hadd, ← hpath, ← himage]
        exact imagesKept_add hi .services d
      · -- the new document is added, and then the old one and its image are deleted
        rw [if_neg hedit, ← hpath, ← himage]
        have hne : d.document.documentID ≠ serviceUpdate.id := hid ▸ hnew
        have hrest := hi.mono (refsOf_without_subset s .services serviceUpdate.id)
        obtain ⟨hdocs, hstorage⟩ := deleteDocument_cases hdelete
        have hrefs : refsOf s'.docs
            = insert (d.path, d.image) (refsOf (s.without .services serviceUpdate.id)) := by
          rw [hdocs]
          exact refsOf_add_without (s.putData d.path d.image) .services d hne
        rw [ImagesKept, hrefs, ObjectStore.resolves_insert]
        rcases hstorage with ⟨hnone, hstorage⟩ | ⟨q, hq, hstorage⟩
        · simp only [hstorage, hnone, putData, add, ObjectStore.put_self, true_and,
            Option.not_mem_none, false_implies, implies_true, and_true]
          exact ObjectStore.resolves_put_iff hrest
        · simp only [hstorage, hq, putData, add, Option.mem_some, forall_eq']
          rw [ObjectStore.resolves_remove_put_iff hrest]
          -- the deleted path may be the one just uploaded to
          by_cases hsame : d.path = q
          · simp [hsame]
          · simp only [ObjectStore.remove_of_ne hsame, ObjectStore.put_self, true_and, ne_eq,
              hsame, not_false_eq_true]

theorem imagesKept_saveMaster {s s' : CloudState urls} (hi : s.ImagesKept)
    {masterUpdate master : Master} {image : Option ImageData} {documentID : String}
    (h : AddNewMasterVC.saveMaster s masterUpdate master image documentID = some s') :
    s'.ImagesKept ↔ s.Unshared (.saveMaster masterUpdate master image documentID) := by
  cases image with
  | none =>
      obtain rfl := Option.some.inj h
      simp [Unshared, hi]
  | some uploadData =>
      simp only [Unshared, Option.mem_some, forall_eq']
      simp only [AddNewMasterVC.saveMaster, urls.downloadURL_ne_empty, if_false] at h
      split_ifs at h with hid
      · have hedit : masterUpdate.id ≠ "" := by simpa using hid
        rw [if_neg hedit]
        have hrest := hi.mono (refsOf_without_subset s .masters masterUpdate.id)
        obtain ⟨q, hq, rfl⟩ := Option.map_eq_some_iff.mp h
        simp only [ImagesKept, putData, hq, Option.mem_some, forall_eq']
        rw [refsOf_updata]
        generalize AddNewMasterVC.imagePath master.name = path
        -- `updateData` fails on a document that is not there, and the image is uploaded in vain
        by_cases hexists : ∃ d ∈ s.docs .masters, d.document.documentID = masterUpdate.id
        · have hinsert : {r | r = (path, uploadData) ∧
              ∃ d ∈ s.docs .masters, d.document.documentID = masterUpdate.id}
              = {(path, uploadData)} := by
            ext r
            simp [hexists]
          rw [hinsert, Set.singleton_union, ObjectStore.resolves_insert,
            ObjectStore.resolves_remove_put_iff hrest]
          by_cases hsame : path = q
          · simp [hsame, hexists]
          · simp [ObjectStore.remove_of_ne hsame, hsame]
        · have hempty : {r | r = (path, uploadData) ∧
              ∃ d ∈ s.docs .masters, d.document.documentID = masterUpdate.id} = ∅ := by
            ext r
            simp [hexists]
          rw [hempty, Set.empty_union, ObjectStore.resolves_remove_put_iff hrest]
          simp [hexists]
      · have hadd : masterUpdate.id = "" := by simpa using hid
        obtain rfl := Option.some.inj h
        rw [if_pos hadd]
        exact imagesKept_add hi .masters ⟨⟨documentID, _⟩, _, uploadData, _⟩

theorem imagesKept_saveDiscont {s s' : CloudState urls} (hi : s.ImagesKept)
    {discontUpdate discont : Discont} {image : Option ImageData} {documentID : String}
    (h : AddNewDiscontVC.saveDiscont s discontUpdate discont image documentID = some s') :
    s'.ImagesKept ↔ s.Unshared (.saveDiscont discontUpdate discont image documentID) := by
  unfold AddNewDiscontVC.saveDiscont at h
  split_ifs at h with hid
  · have hedit : discontUpdate.id ≠ "" := by simpa using hid
    obtain ⟨t, hdelete, rfl⟩ := Option.map_eq_some_iff.mp h
    simp only [Unshared, if_neg hedit]
    cases image with
    | none => exact imagesKept_deleteDocument hi hdelete
    | some uploadData =>
        obtain ⟨d, hpath, himage, hsave⟩ :=
          saveDataToFireBase_cases t discont uploadData documentID
        have hrest := hi.mono (refsOf_without_subset s .disconts discontUpdate.id)
        obtain ⟨hdocs, hstorage⟩ := deleteDocument_cases hdelete
        rw [hsave, ImagesKept, refsOf_add, ObjectStore.resolves_insert, ← hpath, ← himage]
        simp only [putData, add, ObjectStore.put_self, true_and, hdocs]
        rcases hstorage with ⟨hnone, hstorage⟩ | ⟨q, hq, hstorage⟩
        · simp only [hstorage, hnone, Option.not_mem_none, false_implies, implies_true, and_true]
          exact ObjectStore.resolves_put_iff hrest
        · simp only [hstorage, hq, Option.mem_some, forall_eq']
          exact ObjectStore.resolves_put_remove_iff hrest
  · have hadd : discontUpdate.id = "" := by simpa using hid
    obtain rfl := Option.some.inj h
    simp only [Unshared, if_pos hadd]
    cases image with
    | none =>
        simp only [Option.not_mem_none, false_implies, implies_true, iff_true]
        exact hi
    | some uploadData =>
        obtain ⟨d, hpath, himage, hsave⟩ :=
          saveDataToFireBase_cases s discont uploadData documentID
        rw [hsave]
        simp only [Option.mem_some, forall_eq', ← hpath, ← himage]
        exact imagesKept_add hi .disconts d

/-- **One operation** keeps the images exactly if it meets the condition. -/
theorem step_imagesKept_iff {s s' : CloudState urls} {e : EditorEvent} (hi : s.ImagesKept)
    (h : s.step e = some s') : s'.ImagesKept ↔ s.Unshared e := by
  cases e with
  | saveService now serviceUpdate serviceNew image documentID =>
      simp only [step] at h
      split_ifs at h with hnew
      exact imagesKept_saveService hi hnew h
  | saveMaster masterUpdate master image documentID => exact imagesKept_saveMaster hi h
  | saveDiscont discontUpdate discont image documentID => exact imagesKept_saveDiscont hi h
  | deleteDocument id imageURL collection child => exact imagesKept_deleteDocument hi h

/-! ## The condition, computed -/

instance (docs : Collection → List (Stored urls)) (k : String) (x : ImageData) :
    Decidable (ObjectStore.OwnsOnly (refsOf docs) k x) :=
  inferInstanceAs (Decidable (∀ r ∈ [Collection.services, .masters, .disconts].flatMap
    (fun collection => (docs collection).map (fun d => (d.path, d.image))), r.1 = k → r.2 = x))

instance (docs : Collection → List (Stored urls)) (k : String) :
    Decidable (ObjectStore.Unreferenced (refsOf docs) k) :=
  inferInstanceAs (Decidable (∀ r ∈ [Collection.services, .masters, .disconts].flatMap
    (fun collection => (docs collection).map (fun d => (d.path, d.image))), r.1 ≠ k))

instance (s : CloudState urls) (e : EditorEvent) : Decidable (s.Unshared e) :=
  match e with
  | .saveService _ serviceUpdate serviceNew image _ =>
      inferInstanceAs (Decidable (∀ uploadData ∈ image,
        if serviceUpdate.id = "" then ObjectStore.OwnsOnly (refsOf s.docs)
          (AddNewServiceVC.imagePath serviceNew.nameService) uploadData
        else
          ObjectStore.OwnsOnly (refsOf (s.without .services serviceUpdate.id))
            (AddNewServiceVC.imagePath serviceNew.nameService) uploadData ∧
          ∀ q ∈ deletedPath urls serviceUpdate.imageURL "service_images",
            AddNewServiceVC.imagePath serviceNew.nameService ≠ q ∧
              ObjectStore.Unreferenced (refsOf (s.without .services serviceUpdate.id)) q))
  | .saveMaster masterUpdate master image _ =>
      inferInstanceAs (Decidable (∀ uploadData ∈ image,
        if masterUpdate.id = "" then ObjectStore.OwnsOnly (refsOf s.docs)
          (AddNewMasterVC.imagePath master.name) uploadData
        else
          ObjectStore.OwnsOnly (refsOf (s.without .masters masterUpdate.id))
            (AddNewMasterVC.imagePath master.name) uploadData ∧
          ∀ q ∈ urls.reference masterUpdate.imageURL,
            ((∃ d ∈ s.docs .masters, d.document.documentID = masterUpdate.id) →
              AddNewMasterVC.imagePath master.name ≠ q) ∧
              ObjectStore.Unreferenced (refsOf (s.without .masters masterUpdate.id)) q))
  | .saveDiscont discontUpdate discont image _ =>
      if hadd : discontUpdate.id = "" then
        decidable_of_iff (∀ uploadData ∈ image, ObjectStore.OwnsOnly (refsOf s.docs)
          (AddNewDiscontVC.imagePath discont.name) uploadData) (by simp only [Unshared, if_pos hadd])
      else match image with
        | none => decidable_of_iff
            (∀ q ∈ deletedPath urls discontUpdate.imageURL "discont_images",
              ObjectStore.Unreferenced (refsOf (s.without .disconts discontUpdate.id)) q)
            (by simp only [Unshared, if_neg hadd])
        | some uploadData => decidable_of_iff
            (ObjectStore.OwnsOnly (refsOf (s.without .disconts discontUpdate.id))
                (AddNewDiscontVC.imagePath discont.name) uploadData ∧
              ∀ q ∈ deletedPath urls discontUpdate.imageURL "discont_images",
                ∀ r ∈ [Collection.services, .masters, .disconts].flatMap (fun collection =>
                  (s.without .disconts discontUpdate.id collection).map
                    (fun d => (d.path, d.image))),
                  r.1 = q → q = AddNewDiscontVC.imagePath discont.name)
            (by simp only [Unshared, if_neg hadd]; rfl)
  | .deleteDocument id imageURL collection child =>
      inferInstanceAs (Decidable (∀ q ∈ deletedPath urls imageURL child,
        ObjectStore.Unreferenced (refsOf (s.without collection id)) q))

end CloudState

/-! ## The runs of the editors -/

/-- **Every document keeps its image** in every run whose operations write and delete no path of
another document, and in which no edit of a service or a master deletes what it has uploaded. -/
theorem imagesKept_of_reach (urls : DownloadURL) (s : CloudState urls)
    (h : (editors urls).Reach CloudState.Unshared s) : s.ImagesKept := by
  apply h.invariant CloudState.ImagesKept (fun _ h0 => h0)
  intro s e s' hi hc hs
  exact (CloudState.step_imagesKept_iff hi hs).mpr hc

/-- No document and no image. -/
def emptyCloud : CloudState schemeURL := ⟨fun _ => none, fun _ => []⟩

theorem imagesKept_emptyCloud : emptyCloud.ImagesKept := by
  intro r hr
  obtain ⟨c, d, hd, -⟩ := CloudState.mem_refsOf.mp hr
  simp [emptyCloud] at hd

def manicure : Service := { nameService := "manicure", timeService := "1:00" }

/-- The service as it is stored under an id. -/
def storedManicure (id : String) : Service :=
  { manicure with id, imageURL := schemeURL.downloadURL (AddNewServiceVC.imagePath "manicure") }

/-- A service is added and then edited under a new name and with a new image. -/
theorem imagesKept_renamed : ∃ s, (editors schemeURL).Reach CloudState.Unshared s ∧
    (s.docs .services).map (fun d => (d.document.documentID, s.storage d.path))
      = [("second", some [2])] ∧ s.ImagesKept := by
  have hrun : ((editors schemeURL).execWhere CloudState.Unshared emptyCloud
      [.saveService 0 {} manicure (some [1]) "first",
        .saveService 0 (storedManicure "first") { manicure with nameService := "pedicure" }
          (some [2]) "second"]).map
        (fun s => (s.docs .services).map (fun d => (d.document.documentID, s.storage d.path)))
      = some [("second", some [2])] := by decide
  obtain ⟨s, hs, hdocs⟩ := Option.map_eq_some_iff.mp hrun
  have hreach := EventMachine.reach_of_execWhere _ imagesKept_emptyCloud hs
  exact ⟨s, hreach, hdocs, imagesKept_of_reach schemeURL s hreach⟩

/-- **The lost image.** A service is added and then edited under the same name: its new image is
deleted. -/
theorem not_imagesKept : ¬ ∀ (urls : DownloadURL) (s : CloudState urls),
    (editors urls).Reachable s → s.ImagesKept := by
  intro hall
  have hrun : ((editors schemeURL).exec emptyCloud
      [.saveService 0 {} manicure (some [1]) "first",
        .saveService 0 (storedManicure "first") manicure (some [2]) "second"]).map
        (fun s => (s.docs .services).map (fun d => (d.document.documentID, s.storage d.path)))
      = some [("second", none)] := by decide
  obtain ⟨s, hs, hdocs⟩ := Option.map_eq_some_iff.mp hrun
  have hkept := hall schemeURL s (EventMachine.reachable_of_exec _ imagesKept_emptyCloud hs)
  obtain ⟨d, hd, heq⟩ : ∃ d ∈ s.docs .services,
      (d.document.documentID, s.storage d.path) = ("second", none) :=
    List.mem_map.mp (by rw [hdocs]; exact List.mem_singleton_self _)
  have hresolves := hkept (d.path, d.image) (CloudState.mem_refsOf.mpr ⟨.services, d, hd, rfl⟩)
  rw [(Prod.mk.inj heq).2] at hresolves
  cases hresolves

end Flamingo
