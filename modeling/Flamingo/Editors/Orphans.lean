import Flamingo.Editors.Images

set_option autoImplicit false

/-! # Images that no document has

An edit and a deletion delete the image of the record that goes away, by the URL that the screen
knows, and a failed edit may upload an image for nothing. So the Storage holds exactly the images of
the documents as long as no operation touches the image of another document
(`Editors/Images.lean`), and what it leaves behind is what it deletes.
-/

namespace Flamingo

variable {urls : DownloadURL}

namespace CloudState

/-- The Storage holds the images of the documents and no others. -/
def ImagesExact (s : CloudState urls) : Prop :=
  ∀ path image, s.storage path = some image ↔ (path, image) ∈ refsOf s.docs

/-- No image is left without a document. -/
def NoOrphans (s : CloudState urls) : Prop := ObjectStore.Covers s.storage (refsOf s.docs)

theorem imagesExact_iff (s : CloudState urls) : s.ImagesExact ↔ s.ImagesKept ∧ s.NoOrphans :=
  ObjectStore.resolves_and_covers_iff.symm

/-- The images of the documents that go away are deleted, overwritten or those of others; and a
master that is not there any more is not edited, unless its image has a place. -/
def Tidy (s : CloudState urls) : EditorEvent → Prop
  | .saveService _ serviceUpdate serviceNew image _ => image.isSome → serviceUpdate.id ≠ "" →
      ObjectStore.Accounted (refsOf s.docs) (refsOf (s.without .services serviceUpdate.id))
        (AddNewServiceVC.imagePath serviceNew.nameService ::
          (deletedPath urls serviceUpdate.imageURL "service_images").toList)
  | .saveMaster masterUpdate master image _ => image.isSome → masterUpdate.id ≠ "" →
      let path := AddNewMasterVC.imagePath master.name
      if ∃ d ∈ s.docs .masters, d.document.documentID = masterUpdate.id then
        ObjectStore.Accounted (refsOf s.docs) (refsOf (s.without .masters masterUpdate.id))
          (path :: (urls.reference masterUpdate.imageURL).toList)
      else
        ∀ q ∈ urls.reference masterUpdate.imageURL, path = q ∨ ∃ r ∈ refsOf s.docs, r.1 = path
  | .saveDiscont discontUpdate discont image _ => discontUpdate.id ≠ "" →
      ObjectStore.Accounted (refsOf s.docs) (refsOf (s.without .disconts discontUpdate.id))
        ((image.map (fun _ => AddNewDiscontVC.imagePath discont.name)).toList ++
          (deletedPath urls discontUpdate.imageURL "discont_images").toList)
  | .deleteDocument id imageURL collection child =>
      ObjectStore.Accounted (refsOf s.docs) (refsOf (s.without collection id))
        (deletedPath urls imageURL child).toList

instance (docs docs' : Collection → List (Stored urls)) (free : List String) :
    Decidable (ObjectStore.Accounted (refsOf docs) (refsOf docs') free) :=
  inferInstanceAs (Decidable (∀ r ∈ [Collection.services, .masters, .disconts].flatMap
    (fun collection => (docs collection).map (fun d => (d.path, d.image))), r.1 ∈ free ∨
      ∃ r' ∈ [Collection.services, .masters, .disconts].flatMap
        (fun collection => (docs' collection).map (fun d => (d.path, d.image))), r'.1 = r.1))

instance (docs : Collection → List (Stored urls)) (path : String) :
    Decidable (∃ r ∈ refsOf docs, r.1 = path) :=
  inferInstanceAs (Decidable (∃ r ∈ [Collection.services, .masters, .disconts].flatMap
    (fun collection => (docs collection).map (fun d => (d.path, d.image))), r.1 = path))

instance (s : CloudState urls) (e : EditorEvent) : Decidable (s.Tidy e) :=
  match e with
  | .saveService _ _ _ _ _ =>
      inferInstanceAs (Decidable (_ → _ → ObjectStore.Accounted (refsOf _) (refsOf _) _))
  | .saveMaster masterUpdate _ _ _ =>
      inferInstanceAs (Decidable (_ → _ →
        if ∃ d ∈ s.docs .masters, d.document.documentID = masterUpdate.id then
          ObjectStore.Accounted (refsOf _) (refsOf _) _
        else ∀ q ∈ urls.reference masterUpdate.imageURL, _ = q ∨ ∃ r ∈ refsOf s.docs, r.1 = _))
  | .saveDiscont _ _ _ _ =>
      inferInstanceAs (Decidable (_ → ObjectStore.Accounted (refsOf _) (refsOf _) _))
  | .deleteDocument _ _ _ _ =>
      inferInstanceAs (Decidable (ObjectStore.Accounted (refsOf _) (refsOf _) _))

/-! ## One operation -/

theorem noOrphans_add {s : CloudState urls} (hi : s.NoOrphans) (c : Collection) (d : Stored urls) :
    ((s.putData d.path d.image).add c d).NoOrphans := by
  rw [NoOrphans, refsOf_add]
  exact ObjectStore.covers_put hi

theorem noOrphans_deleteDocument {s s' : CloudState urls} (hkept : s.ImagesKept)
    (hi : s.NoOrphans) {id imageURL child : String} {c : Collection}
    (h : s.deleteDocument id imageURL c child = some s') :
    s'.NoOrphans ↔ s.Tidy (.deleteDocument id imageURL c child) := by
  obtain ⟨hdocs, ⟨hnone, hstorage⟩ | ⟨q, hq, hstorage⟩⟩ := deleteDocument_cases h
  · rw [NoOrphans, Tidy, hdocs, hstorage, hnone]
    exact ObjectStore.covers_iff hkept hi
  · rw [NoOrphans, Tidy, hdocs, hstorage, hq]
    exact ObjectStore.covers_remove_iff hkept hi

theorem noOrphans_saveService {now : Int} {s s' : CloudState urls} (hkept : s.ImagesKept)
    (hi : s.NoOrphans) {serviceUpdate serviceNew : Service} {image : Option ImageData}
    {documentID : String} (hnew : documentID ≠ serviceUpdate.id)
    (h : AddNewServiceVC.saveAction now s serviceUpdate serviceNew image documentID = some s') :
    s'.NoOrphans ↔ s.Tidy (.saveService now serviceUpdate serviceNew image documentID) := by
  cases image with
  | none =>
      obtain rfl := Option.some.inj h
      exact iff_of_true hi nofun
  | some uploadData =>
      obtain ⟨d, hpath, himage, hid, ⟨hadd, rfl⟩ | ⟨hedit, hdelete⟩⟩ := saveAction_cases h
      · exact iff_of_true (noOrphans_add hi .services d) (fun _ hne => absurd hadd hne)
      · rw [Tidy, ← hpath, Option.isSome_some]
        simp only [forall_const, hedit, ne_eq, not_false_eq_true]
        have hne : d.document.documentID ≠ serviceUpdate.id := hid ▸ hnew
        obtain ⟨hdocs, hstorage⟩ := deleteDocument_cases hdelete
        have hrefs : refsOf s'.docs
            = insert (d.path, d.image) (refsOf (s.without .services serviceUpdate.id)) := by
          rw [hdocs]
          exact refsOf_add_without (s.putData d.path d.image) .services d hne
        rw [NoOrphans, hrefs]
        rcases hstorage with ⟨hnone, hstorage⟩ | ⟨q, hq, hstorage⟩
        · rw [hstorage, hnone]
          refine ObjectStore.covers_put_insert_iff ?_
          rw [ObjectStore.keys_of_covers hkept hi]
          simp
        · rw [hstorage, hq]
          exact ObjectStore.covers_remove_put_insert_iff hkept hi

theorem noOrphans_saveMaster {s s' : CloudState urls} (hkept : s.ImagesKept) (hi : s.NoOrphans)
    {masterUpdate master : Master} {image : Option ImageData} {documentID : String}
    (h : AddNewMasterVC.saveMaster s masterUpdate master image documentID = some s') :
    s'.NoOrphans ↔ s.Tidy (.saveMaster masterUpdate master image documentID) := by
  cases image with
  | none =>
      obtain rfl := Option.some.inj h
      exact iff_of_true hi nofun
  | some uploadData =>
      simp only [AddNewMasterVC.saveMaster, urls.downloadURL_ne_empty, if_false] at h
      split_ifs at h with hid
      · have hedit : masterUpdate.id ≠ "" := by simpa using hid
        obtain ⟨q, hq, rfl⟩ := Option.map_eq_some_iff.mp h
        rw [Tidy, Option.isSome_some]
        simp only [forall_const, hedit, ne_eq, not_false_eq_true]
        simp only [NoOrphans, putData, hq, Option.mem_some, forall_eq', Option.toList_some]
        rw [refsOf_updata]
        generalize AddNewMasterVC.imagePath master.name = path
        by_cases hexists : ∃ d ∈ s.docs .masters, d.document.documentID = masterUpdate.id
        · have hinsert : {r | r = (path, uploadData) ∧
              ∃ d ∈ s.docs .masters, d.document.documentID = masterUpdate.id}
              = {(path, uploadData)} := by
            ext r
            simp [hexists]
          rw [hinsert, Set.singleton_union, if_pos hexists]
          exact ObjectStore.covers_remove_put_insert_iff hkept hi
        · -- nothing is updated, and the image has been uploaded in vain
          have hempty : {r | r = (path, uploadData) ∧
              ∃ d ∈ s.docs .masters, d.document.documentID = masterUpdate.id} = ∅ := by
            ext r
            simp [hexists]
          have hall : s.without .masters masterUpdate.id = s.docs := by
            rw [without, List.filter_eq_self.mpr, Function.update_eq_self]
            intro d hd
            rw [bne_iff_ne]
            exact fun heq => hexists ⟨d, hd, heq⟩
          rw [hempty, Set.empty_union, if_neg hexists, hall]
          exact ObjectStore.covers_remove_put_iff hkept hi
      · have hadd : masterUpdate.id = "" := by simpa using hid
        obtain rfl := Option.some.inj h
        exact iff_of_true (noOrphans_add hi .masters ⟨⟨documentID, _⟩, _, uploadData, _⟩)
          (fun _ hne => absurd hadd hne)

theorem noOrphans_saveDiscont {s s' : CloudState urls} (hkept : s.ImagesKept) (hi : s.NoOrphans)
    {discontUpdate discont : Discont} {image : Option ImageData} {documentID : String}
    (h : AddNewDiscontVC.saveDiscont s discontUpdate discont image documentID = some s') :
    s'.NoOrphans ↔ s.Tidy (.saveDiscont discontUpdate discont image documentID) := by
  unfold AddNewDiscontVC.saveDiscont at h
  split_ifs at h with hid
  · have hedit : discontUpdate.id ≠ "" := by simpa using hid
    obtain ⟨t, hdelete, rfl⟩ := Option.map_eq_some_iff.mp h
    rw [Tidy]
    simp only [hedit, ne_eq, not_false_eq_true, forall_const]
    cases image with
    | none => exact noOrphans_deleteDocument hkept hi hdelete
    | some uploadData =>
        obtain ⟨d, hpath, himage, hsave⟩ :=
          saveDataToFireBase_cases t discont uploadData documentID
        obtain ⟨hdocs, hstorage⟩ := deleteDocument_cases hdelete
        rw [hsave, NoOrphans, refsOf_add, ← hpath]
        simp only [putData, add, hdocs]
        refine ObjectStore.covers_put_insert_iff ?_
        rcases hstorage with ⟨hnone, hstorage⟩ | ⟨q, hq, hstorage⟩
        · rw [hstorage, hnone, ObjectStore.keys_of_covers hkept hi]
          simp
        · rw [hstorage, hq, ObjectStore.keys_remove, ObjectStore.keys_of_covers hkept hi]
          simp
  · have hadd : discontUpdate.id = "" := by simpa using hid
    obtain rfl := Option.some.inj h
    refine iff_of_true ?_ (fun hne => absurd hadd hne)
    cases image with
    | none => exact hi
    | some uploadData =>
        obtain ⟨d, hpath, himage, hsave⟩ :=
          saveDataToFireBase_cases s discont uploadData documentID
        rw [hsave]
        exact noOrphans_add hi .disconts d

/-- **One operation** keeps the Storage exact if and only if it touches the image of no other
document and leaves none behind. -/
theorem step_imagesExact_iff {s s' : CloudState urls} {e : EditorEvent} (hi : s.ImagesExact)
    (h : s.step e = some s') : s'.ImagesExact ↔ s.Unshared e ∧ s.Tidy e := by
  obtain ⟨hkept, horphans⟩ := (imagesExact_iff s).mp hi
  have htidy : s'.NoOrphans ↔ s.Tidy e := by
    cases e with
    | saveService now serviceUpdate serviceNew image documentID =>
        simp only [step] at h
        split_ifs at h with hnew
        exact noOrphans_saveService hkept horphans hnew h
    | saveMaster masterUpdate master image documentID =>
        exact noOrphans_saveMaster hkept horphans h
    | saveDiscont discontUpdate discont image documentID =>
        exact noOrphans_saveDiscont hkept horphans h
    | deleteDocument id imageURL collection child =>
        exact noOrphans_deleteDocument hkept horphans h
  rw [imagesExact_iff, step_imagesKept_iff hkept h, htidy]

end CloudState

/-- Any sequence of completed operations, from a Storage that is exact. -/
def exactEditors (urls : DownloadURL) : EventMachine (CloudState urls) EditorEvent where
  init := CloudState.ImagesExact
  step := CloudState.step

theorem imagesExact_emptyCloud : emptyCloud.ImagesExact := by
  intro path image
  refine iff_of_false nofun (fun hr => ?_)
  obtain ⟨c, d, hd, -⟩ := CloudState.mem_refsOf.mp hr
  simp [emptyCloud] at hd

end Flamingo
