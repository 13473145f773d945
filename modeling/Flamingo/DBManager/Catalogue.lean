import Flamingo.Lib.Replicas
import Flamingo.DBManager.Favorites
import Flamingo.DBManager.KeptRecords

set_option autoImplicit false

/-! # The catalogue on many devices

One collection of Firestore and the tables that any number of devices keep of it. The editors add,
update and delete documents; a device asks for the collection, and the answer, which shows it as it
was when the server looked, may arrive when it has changed again. Downloads that an answer has
started end later still. A device also deletes objects from its lists, switches favourites, and is
terminated at any moment, which leaves its table as it is and ends what is in flight.

`versions` is not in the program: it remembers the documents as they have been. Seen as replicas of
it (`refines_replicas`), the devices hold nothing that was never published.
-/

namespace Flamingo

/-- The objects of a class without the image, which does not come with the document, and the flag,
which belongs to the device. -/
def SyncClass.fields : (k : SyncClass) → k.realmClass.Object → k.realmClass.Object
  | .discont => fun discont : Discont => { discont with image := none }
  | .category => fun category : CategoryService => { category with image := none }
  | .master => fun master : Master => { master with image := none }
  | .service => fun service : Service => { service with image := none, favorites := false }

/-- What a device should show of a document: each field is the text under its key. No class stores
the flag, and the cosmetology of a service is not downloaded. -/
def SyncClass.shown : (k : SyncClass) → Document → k.realmClass.Object
  | .discont => fun d => show Discont from
      { id := d.documentID
        name := d.data.text "name"
        descriptionDiscont := d.data.text "description"
        dateStart := d.data.text "dateStart"
        dateEnd := d.data.text "dateEnd"
        imageURL := d.data.text "imageURL" }
  | .category => fun d => show CategoryService from
      { id := d.documentID
        category := d.data.text "category"
        imageURL := d.data.text "imageURL" }
  | .master => fun d => show Master from
      { id := d.documentID
        name := d.data.text "name"
        profil := d.data.text "profil"
        info := d.data.text "info"
        imageURL := d.data.text "imageURL" }
  | .service => fun d => show Service from
      { id := d.documentID
        nameService := d.data.text "name"
        placeService := d.data.text "place"
        timeService := d.data.text "time"
        serviceDescription := d.data.text "discription"
        nameCategoryService := d.data.text "nameCategory"
        partOfTheBody := d.data.text "partOfTheBody"
        maleMan := d.data.text "maleman"
        imageURL := d.data.text "imageURL"
        idsMasters := d.data.text "idsMasters" }

/-- The switch of the favourites, which only services have. -/
def SyncClass.flip : (k : SyncClass) → k.realmClass.Object → k.realmClass.Object
  | .discont => id
  | .category => id
  | .master => id
  | .service => flipFavorites

/-- The initialisers read every field under its key. -/
theorem SyncClass.fields_init (k : SyncClass) (d : Document) (image : ImageData) :
    k.fields (k.realmClass.init d.documentID d.data image) = k.shown d := by
  cases k <;> rfl

theorem SyncClass.fields_flip (k : SyncClass) (object : k.realmClass.Object) :
    k.fields (k.flip object) = k.fields object := by
  cases k with
  | discont => rfl
  | category => rfl
  | master => rfl
  | service =>
      have hflip : ∀ service : Service,
          ({ flipFavorites service with image := none, favorites := false } : Service)
            = { service with image := none, favorites := false } := by
        intro service
        rw [flipFavorites_eq]
      exact hflip object

theorem SyncClass.id_fields (k : SyncClass) (object : k.realmClass.Object) :
    k.realmClass.id (k.fields object) = k.realmClass.id object := by
  cases k <;> rfl

theorem SyncClass.id_shown (k : SyncClass) (d : Document) :
    k.realmClass.id (k.shown d) = d.documentID := by
  cases k <;> rfl

structure Catalogue (k : SyncClass) where
  collection : List Document
  /-- the documents of the collection as they are and have been -/
  versions : List Document
  /-- the answers on their way to a device -/
  answers : Nat → List (List Document)
  devices : Nat → SyncState k.realmClass

inductive CatalogueEvent
  | addDocument (documentID : String) (data : DocData)
  | updateData (documentID key : String) (value : Value)
  | delete (documentID : String)
  /-- the server answers a device that has asked for the collection -/
  | getDocuments (device : Nat)
  | arrive (device i : Nat)
  | arriveError (device i : Nat)
  | complete (device i : Nat) (download : Download)
  | deleteObjectRealm (device key : Nat)
  | updateFavorites (device key : Nat)
  | terminate (device : Nat)

namespace Catalogue

variable {k : SyncClass}

/-- A step of one device. -/
def onDevice (s : Catalogue k) (device : Nat) (sync : Option (SyncState k.realmClass)) :
    Option (Catalogue k) :=
  sync.map (fun sync => { s with devices := Function.update s.devices device sync })

def dropAnswer (s : Catalogue k) (device i : Nat) : Catalogue k :=
  { s with answers := Function.update s.answers device ((s.answers device).eraseIdx i) }

def step (isURL : String → Bool) (s : Catalogue k) : CatalogueEvent → Option (Catalogue k)
  | .addDocument documentID data =>
      -- Firestore generates an id that no document has had
      if documentID ∈ s.versions.map (·.documentID) then none
      else some { s with
        collection := Flamingo.addDocument s.collection documentID data
        versions := s.versions ++ [⟨documentID, data⟩] }
  | .updateData documentID key value =>
      -- of the four classes only masters are edited in place
      if k = .master then
        let collection := Flamingo.updateData s.collection documentID key value
        some { s with
          collection
          versions := s.versions ++ collection.filter (fun d => d.documentID == documentID) }
      else none
  | .delete documentID => some { s with collection := deleteDoc s.collection documentID }
  | .getDocuments device => some { s with
      answers := Function.update s.answers device (s.answers device ++ [inIdOrder s.collection]) }
  | .arrive device i => do
      let documents ← (s.answers device)[i]?
      (s.dropAnswer device i).onDevice device ((s.devices device).processSnapshot isURL documents)
  | .arriveError device i => some (s.dropAnswer device i)
  | .complete device i download => s.onDevice device ((s.devices device).complete i download)
  | .deleteObjectRealm device key =>
      let sync := s.devices device
      s.onDevice device (some { sync with table := sync.table.deleteObjectRealm key })
  | .updateFavorites device key =>
      let sync := s.devices device
      s.onDevice device (some { sync with table := sync.table.write key k.flip })
  | .terminate device =>
      let sync := s.devices device
      { s with answers := Function.update s.answers device [] }.onDevice device
        (some { sync with pending := [], snapshot := none })

end Catalogue

/-- A collection with different ids, and devices on which the program has just been installed. -/
def catalogue (k : SyncClass) (isURL : String → Bool) :
    EventMachine (Catalogue k) CatalogueEvent where
  init s := s.versions = s.collection ∧ (s.collection.map (·.documentID)).Nodup ∧
    (∀ device, s.answers device = []) ∧ ∀ device, s.devices device = ⟨Table.empty, [], none⟩
  step := Catalogue.step isURL

/-! ## What a step of a device adds -/

namespace SyncState

variable {c : RealmClass} {isURL : String → Bool}

/-- **A snapshot** adds no object, and starts downloads of its documents only. -/
theorem sources_processSnapshot {s s' : SyncState c} {documents : List Document}
    (h : s.processSnapshot isURL documents = some s') :
    (∀ o ∈ s'.table.objects, o ∈ s.table.objects) ∧
      ∀ d ∈ s'.pending, d ∈ s.pending ∨ d ∈ documents := by
  constructor
  · intro o ho
    exact ((mem_processSnapshot h).mp ho).1
  · obtain ⟨t, hloop, rfl⟩ := processSnapshot_eq_some.mp h
    obtain ⟨-, new, hpending, hnew⟩ := processDocuments_effect hloop
    intro d hd
    replace hd : d ∈ t.pending := hd
    rw [hpending] at hd
    rcases List.mem_append.mp hd with hd | hd
    · exact Or.inl hd
    · exact Or.inr (hnew d hd).1

/-- **A download** adds at most the object of its document. -/
theorem sources_complete {s s' : SyncState c} {i : Nat} {download : Download}
    (h : s.complete i download = some s') :
    (∀ o ∈ s'.table.objects, o ∈ s.table.objects ∨
      ∃ d ∈ s.pending, ∃ image, o.2 = c.init d.documentID d.data image) ∧
      ∀ d ∈ s'.pending, d ∈ s.pending := by
  obtain ⟨d, hd, hpending, -, hcase⟩ := complete_eq_some h
  constructor
  · intro o ho
    rcases hcase with ⟨image, -, htable⟩ | ⟨-, htable⟩
    · rw [htable] at ho
      rcases List.mem_append.mp ho with ho | ho
      · exact Or.inl ho
      · rw [List.mem_singleton.mp ho]
        exact Or.inr ⟨d, List.mem_of_getElem? hd, image, rfl⟩
    · rw [htable] at ho
      exact Or.inl ho
  · intro x hx
    rw [hpending] at hx
    exact List.mem_of_mem_eraseIdx hx

end SyncState

/-! ## The devices as replicas of the collection -/

namespace Catalogue

variable {k : SyncClass} {isURL : String → Bool}

/-- The objects that documents are stored as. -/
def shownSet (k : SyncClass) (documents : List Document) : Set k.realmClass.Object :=
  {v | ∃ d ∈ documents, v = k.shown d}

/-- The documents on their way to a device: in an answer, or waiting for their image. -/
def underway (s : Catalogue k) (device : Nat) : List Document :=
  (s.answers device).flatten ++ (s.devices device).pending

/-- What a device holds. -/
def heldSet (s : Catalogue k) (device : Nat) : Set k.realmClass.Object :=
  {v | ∃ o ∈ (s.devices device).table.objects, v = k.fields o.2}

def replicas (s : Catalogue k) : Replicas Nat k.realmClass.Object where
  source := shownSet k s.collection
  past := shownSet k s.versions
  coming device := shownSet k (s.underway device)
  held := s.heldSet

theorem shownSet_append (a b : List Document) :
    shownSet k (a ++ b) = shownSet k a ∪ shownSet k b := by
  ext v
  simp only [shownSet, List.mem_append, Set.mem_ofPred_eq, Set.mem_union, or_and_right, exists_or]

theorem shownSet_inIdOrder (documents : List Document) :
    shownSet k (inIdOrder documents) = shownSet k documents := by
  ext v
  simp only [shownSet, mem_inIdOrder]

theorem shownSet_subset {a b : List Document} (h : ∀ d ∈ a, d ∈ b) :
    shownSet k a ⊆ shownSet k b := by
  rintro v ⟨d, hd, rfl⟩
  exact ⟨d, h d hd, rfl⟩

/-- The state after a step of one device. -/
def withDevice (s : Catalogue k) (device : Nat) (answers : List (List Document))
    (sync : SyncState k.realmClass) : Catalogue k :=
  { s with
    answers := Function.update s.answers device answers
    devices := Function.update s.devices device sync }

theorem onDevice_eq_some {s s' : Catalogue k} {device : Nat}
    {sync : Option (SyncState k.realmClass)} (h : s.onDevice device sync = some s') :
    ∃ after, sync = some after ∧ s' = s.withDevice device (s.answers device) after := by
  obtain ⟨after, hafter, rfl⟩ := Option.map_eq_some_iff.mp h
  exact ⟨after, hafter, by rw [withDevice, Function.update_eq_self]⟩

/-- What is new on a device was on its way to it, and nothing else comes on its way. -/
structure Takes (s : Catalogue k) (device : Nat) (answers : List (List Document))
    (sync : SyncState k.realmClass) : Prop where
  held : ∀ o ∈ sync.table.objects, (∃ o' ∈ (s.devices device).table.objects,
    k.fields o.2 = k.fields o'.2) ∨ ∃ d ∈ s.underway device, k.fields o.2 = k.shown d
  underway : ∀ d ∈ answers.flatten ++ sync.pending, d ∈ s.underway device

/-- The other devices are as they were. -/
theorem replicas_withDevice (s : Catalogue k) (device : Nat) (answers : List (List Document))
    (sync : SyncState k.realmClass) :
    (s.withDevice device answers sync).replicas = { s.replicas with
      coming := Function.update s.replicas.coming device (shownSet k (answers.flatten ++ sync.pending))
      held := Function.update s.replicas.held device
        {v | ∃ o ∈ sync.table.objects, v = k.fields o.2} } := by
  simp only [replicas, withDevice, Replicas.mk.injEq, true_and]
  constructor
  · funext i
    by_cases hi : i = device
    · subst hi
      simp only [underway, Function.update_self]
    · simp only [underway, Function.update_of_ne hi]
  · funext i
    by_cases hi : i = device
    · subst hi
      simp only [heldSet, Function.update_self]
    · simp only [heldSet, Function.update_of_ne hi]

/-- **A step of one device** is a step of its replica. -/
theorem exists_take {s : Catalogue k} {device : Nat} {answers : List (List Document)}
    {sync : SyncState k.realmClass} (h : s.Takes device answers sync) :
    ∃ e, s.replicas.step e = some (s.withDevice device answers sync).replicas := by
  refine ⟨.take device {v | ∃ o ∈ sync.table.objects, v = k.fields o.2}
    (shownSet k (answers.flatten ++ sync.pending)), ?_⟩
  rw [replicas_withDevice]
  apply Replicas.step_take
  · rintro v ⟨o, ho, rfl⟩
    rcases h.held o ho with ⟨o', ho', heq⟩ | ⟨d, hd, heq⟩
    · exact Or.inl ⟨o', ho', heq⟩
    · exact Or.inr ⟨d, hd, heq⟩
  · exact shownSet_subset h.underway

/-! ## The events of a device -/

theorem takes_processSnapshot {s : Catalogue k} {device i : Nat} {documents : List Document}
    {sync : SyncState k.realmClass} (hanswer : (s.answers device)[i]? = some documents)
    (h : (s.devices device).processSnapshot isURL documents = some sync) :
    s.Takes device ((s.answers device).eraseIdx i) sync := by
  obtain ⟨htable, hpending⟩ := SyncState.sources_processSnapshot h
  refine ⟨fun o ho => Or.inl ⟨o, htable o ho, rfl⟩, ?_⟩
  intro d hd
  rw [underway, List.mem_append]
  rcases List.mem_append.mp hd with hd | hd
  · obtain ⟨answer, hmem, hd⟩ := List.mem_flatten.mp hd
    exact Or.inl (List.mem_flatten.mpr ⟨answer, List.mem_of_mem_eraseIdx hmem, hd⟩)
  · rcases hpending d hd with hd | hd
    · exact Or.inr hd
    · exact Or.inl (List.mem_flatten.mpr ⟨documents, List.mem_of_getElem? hanswer, hd⟩)

theorem takes_complete {s : Catalogue k} {device i : Nat} {download : Download}
    {sync : SyncState k.realmClass} (h : (s.devices device).complete i download = some sync) :
    s.Takes device (s.answers device) sync := by
  obtain ⟨htable, hpending⟩ := SyncState.sources_complete h
  constructor
  · intro o ho
    rcases htable o ho with ho | ⟨d, hd, image, heq⟩
    · exact Or.inl ⟨o, ho, rfl⟩
    · refine Or.inr ⟨d, List.mem_append_right _ hd, ?_⟩
      rw [heq, k.fields_init]
  · intro d hd
    rcases List.mem_append.mp hd with hd | hd
    · exact List.mem_append_left _ hd
    · exact List.mem_append_right _ (hpending d hd)

/-- What the device itself does to its table brings nothing new. -/
theorem takes_table {s : Catalogue k} {device : Nat} {answers : List (List Document)}
    {sync : SyncState k.realmClass}
    (htable : ∀ o ∈ sync.table.objects, ∃ o' ∈ (s.devices device).table.objects,
      k.fields o.2 = k.fields o'.2)
    (hanswers : ∀ answer ∈ answers, answer ∈ s.answers device)
    (hpending : ∀ d ∈ sync.pending, d ∈ (s.devices device).pending) :
    s.Takes device answers sync := by
  refine ⟨fun o ho => Or.inl (htable o ho), ?_⟩
  intro d hd
  rcases List.mem_append.mp hd with hd | hd
  · obtain ⟨answer, hmem, hd⟩ := List.mem_flatten.mp hd
    exact List.mem_append_left _ (List.mem_flatten.mpr ⟨answer, hanswers answer hmem, hd⟩)
  · exact List.mem_append_right _ (hpending d hd)

theorem fields_write {t : Table k.realmClass.Object} {key : Nat} {o : Nat × k.realmClass.Object}
    (ho : o ∈ (t.write key k.flip).objects) : ∃ o' ∈ t.objects, k.fields o.2 = k.fields o'.2 := by
  obtain ⟨o', ho', rfl⟩ := List.mem_map.mp ho
  refine ⟨o', ho', ?_⟩
  split_ifs
  · exact k.fields_flip o'.2
  · rfl

/-- The device that an event happens on. -/
def device? : CatalogueEvent → Option Nat
  | .addDocument _ _ => none
  | .updateData _ _ _ => none
  | .delete _ => none
  | .getDocuments _ => none
  | .arrive device _ => some device
  | .arriveError device _ => some device
  | .complete device _ _ => some device
  | .deleteObjectRealm device _ => some device
  | .updateFavorites device _ => some device
  | .terminate device => some device

theorem dropAnswer_withDevice (s : Catalogue k) (device i : Nat) (sync : SyncState k.realmClass) :
    (s.dropAnswer device i).withDevice device ((s.dropAnswer device i).answers device) sync
      = s.withDevice device ((s.answers device).eraseIdx i) sync := by
  simp only [dropAnswer, withDevice, Function.update_self, Function.update_idem]

/-- **An event on a device** changes nothing else, and the device takes what has come to it. -/
theorem takes_of_step {s s' : Catalogue k} {e : CatalogueEvent} {device : Nat}
    (he : device? e = some device) (h : s.step isURL e = some s') :
    ∃ answers sync, s' = s.withDevice device answers sync ∧ s.Takes device answers sync := by
  cases e with
  | addDocument documentID data => cases he
  | updateData documentID key value => cases he
  | delete documentID => cases he
  | getDocuments device => cases he
  | arrive device i =>
      obtain rfl := Option.some.inj he
      obtain ⟨documents, hanswer, h⟩ := Option.bind_eq_some_iff.mp h
      obtain ⟨sync, hsync, rfl⟩ := onDevice_eq_some h
      exact ⟨_, sync, dropAnswer_withDevice s device i sync, takes_processSnapshot hanswer hsync⟩
  | arriveError device i =>
      obtain rfl := Option.some.inj he
      obtain rfl := Option.some.inj h
      refine ⟨(s.answers device).eraseIdx i, s.devices device, ?_, ?_⟩
      · rw [dropAnswer, withDevice, Function.update_eq_self]
      · exact takes_table (fun o ho => ⟨o, ho, rfl⟩)
          (fun _ hanswer => List.mem_of_mem_eraseIdx hanswer) (fun _ hd => hd)
  | complete device i download =>
      obtain rfl := Option.some.inj he
      obtain ⟨sync, hsync, rfl⟩ := onDevice_eq_some h
      exact ⟨_, sync, rfl, takes_complete hsync⟩
  | deleteObjectRealm device key =>
      obtain rfl := Option.some.inj he
      obtain ⟨sync, hsync, rfl⟩ := onDevice_eq_some h
      obtain rfl := Option.some.inj hsync
      refine ⟨_, _, rfl, takes_table ?_ (fun _ hanswer => hanswer) (fun _ hd => hd)⟩
      intro o ho
      exact ⟨o, (Table.mem_deleteObjectRealm.mp ho).1, rfl⟩
  | updateFavorites device key =>
      obtain rfl := Option.some.inj he
      obtain ⟨sync, hsync, rfl⟩ := onDevice_eq_some h
      obtain rfl := Option.some.inj hsync
      exact ⟨_, _, rfl, takes_table (fun _ ho => fields_write ho) (fun _ hanswer => hanswer)
        (fun _ hd => hd)⟩
  | terminate device =>
      obtain rfl := Option.some.inj he
      obtain ⟨sync, hsync, rfl⟩ := onDevice_eq_some h
      obtain rfl := Option.some.inj hsync
      refine ⟨[], { s.devices device with pending := [], snapshot := none }, ?_, ?_⟩
      · simp only [withDevice, Function.update_self, Function.update_idem]
      · exact takes_table (fun o ho => ⟨o, ho, rfl⟩) (fun _ hanswer => nomatch hanswer)
          (fun _ hd => nomatch hd)

/-! ## The edits of the collection -/

/-- The documents of the collection are among the versions. -/
def Recorded (s : Catalogue k) : Prop := ∀ d ∈ s.collection, d ∈ s.versions

/-- **An edit** changes the collection, and its documents are new versions. -/
theorem edit_of_step {s s' : Catalogue k} {e : CatalogueEvent} (hi : s.Recorded)
    (he : device? e = none) (h : s.step isURL e = some s') :
    (∃ device, e = .getDocuments device) ∨ ∃ collection versions,
      s' = { s with collection, versions } ∧
        ∀ d, d ∈ versions ↔ d ∈ s.versions ∨ d ∈ collection := by
  cases e with
  | getDocuments device => exact Or.inl ⟨device, rfl⟩
  | addDocument documentID data =>
      simp only [step] at h
      split_ifs at h
      refine Or.inr ⟨_, _, (Option.some.inj h).symm, fun d => ?_⟩
      rw [addDocument, List.mem_append, List.mem_append]
      constructor
      · exact Or.imp_right Or.inr
      · rintro (hd | hd | hd)
        · exact Or.inl hd
        · exact Or.inl (hi d hd)
        · exact Or.inr hd
  | updateData documentID key value =>
      simp only [step] at h
      split_ifs at h
      refine Or.inr ⟨_, _, (Option.some.inj h).symm, fun d => ?_⟩
      rw [List.mem_append, List.mem_filter, beq_iff_eq]
      constructor
      · exact Or.imp_right And.left
      · rintro (hd | hd)
        · exact Or.inl hd
        · by_cases hid : d.documentID = documentID
          · exact Or.inr ⟨hd, hid⟩
          · -- another document is as it was
            obtain ⟨d', hd', rfl⟩ := List.mem_map.mp hd
            split_ifs at hid ⊢
            · exact absurd rfl hid
            · exact Or.inl (hi d' hd')
  | delete documentID =>
      refine Or.inr ⟨_, s.versions, (Option.some.inj h).symm, fun d => ?_⟩
      constructor
      · exact Or.inl
      · rintro (hd | hd)
        · exact hd
        · exact hi d (mem_deleteDoc.mp hd).1
  | arrive _ _ | arriveError _ _ | complete _ _ _ | deleteObjectRealm _ _ | updateFavorites _ _
  | terminate _ => cases he

theorem exists_change {s : Catalogue k} {collection versions : List Document}
    (hversions : ∀ d, d ∈ versions ↔ d ∈ s.versions ∨ d ∈ collection) :
    ∃ e, s.replicas.step e = some ({ s with collection, versions } : Catalogue k).replicas := by
  refine ⟨.change (shownSet k collection), ?_⟩
  have hpast : shownSet k versions = shownSet k s.versions ∪ shownSet k collection := by
    ext v
    simp only [shownSet, Set.mem_ofPred_eq, Set.mem_union, hversions, or_and_right, exists_or]
  show some (Replicas.mk _ (shownSet k s.versions ∪ shownSet k collection) _ _) = _
  rw [← hpast]
  rfl

/-- The state after the server has answered a device. -/
theorem exists_send (s : Catalogue k) (device : Nat) :
    ∃ e, s.replicas.step e = some ({ s with
      answers := Function.update s.answers device (s.answers device ++ [inIdOrder s.collection]) } :
        Catalogue k).replicas := by
  refine ⟨.send device, congrArg some ?_⟩
  simp only [replicas, Replicas.mk.injEq, true_and]
  refine ⟨?_, rfl⟩
  funext i
  by_cases hi : i = device
  · subst hi
    simp only [underway, Function.update_self, List.flatten_append, List.flatten_cons,
      List.flatten_nil, List.append_nil, shownSet_append, shownSet_inIdOrder]
    exact Set.union_right_comm _ _ _
  · simp only [underway, Function.update_of_ne hi]

/-! ## The refinement -/

theorem recorded_step {s s' : Catalogue k} {e : CatalogueEvent} (hi : s.Recorded)
    (h : s.step isURL e = some s') : s'.Recorded := by
  cases hdevice : device? e with
  | some device =>
      obtain ⟨answers, sync, rfl, -⟩ := takes_of_step hdevice h
      exact hi
  | none =>
      rcases edit_of_step hi hdevice h with ⟨device, rfl⟩ | ⟨collection, versions, rfl, hversions⟩
      · obtain rfl := Option.some.inj h
        exact hi
      · exact fun d hd => (hversions d).mpr (Or.inr hd)

/-- **The devices are replicas of the collection**: an edit changes the source, an answer sends what
the collection holds, and whatever a device does is a step of its replica. -/
theorem refines_replicas (k : SyncClass) (isURL : String → Bool) :
    EventMachine.Refines (catalogue k isURL) (fun _ _ => True)
      (Replicas.machine Nat k.realmClass.Object) Recorded replicas where
  inv_init := by
    rintro s ⟨hversions, -⟩ d hd
    rw [hversions]
    exact hd
  inv_step := fun _ _ _ hi _ hs => recorded_step hi hs
  init := by
    rintro s ⟨hversions, -, hanswers, hdevices⟩
    refine ⟨congrArg (shownSet k) hversions, ?_, ?_⟩
    · intro device
      show shownSet k (s.underway device) = ∅
      rw [underway, hanswers, hdevices]
      exact Set.eq_empty_of_forall_notMem (fun v ⟨d, hd, _⟩ => nomatch hd)
    · intro device
      show s.heldSet device = ∅
      rw [heldSet, hdevices]
      exact Set.eq_empty_of_forall_notMem (fun v ⟨o, ho, _⟩ => nomatch ho)
  step := by
    rintro s e s' hi - h
    right
    cases hdevice : device? e with
    | some device =>
        obtain ⟨answers, sync, rfl, htakes⟩ := takes_of_step hdevice h
        exact exists_take htakes
    | none =>
        rcases edit_of_step hi hdevice h with ⟨device, rfl⟩ | ⟨collection, versions, rfl, hversions⟩
        · obtain rfl := Option.some.inj h
          exact exists_send s device
        · exact exists_change hversions

end Catalogue

end Flamingo
