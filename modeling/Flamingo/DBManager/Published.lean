import Flamingo.Lib.Prefixes
import Flamingo.DBManager.Catalogue

set_option autoImplicit false

/-! # What the devices show was published

Whatever the answers and downloads are overtaken by, a stored object has the fields that its document
had in one state of the collection: the fields of two versions are never mixed
(`shows_one_version`). Documents of the three classes that are not edited in place have one version,
so all devices agree on every record they have (`devices_agree`). A document that is deleted may
come back with an answer or a download that was under way; when none is, the next answer takes it
from the device for good (`deleted_for_good`).
-/

namespace Flamingo

namespace Catalogue

variable {k : SyncClass} {isURL : String → Bool}

theorem recorded_of_init {s : Catalogue k} (h : (catalogue k isURL).init s) : s.Recorded := by
  intro d hd
  rw [h.1]
  exact hd

/-- What a device holds is a version of a document. -/
theorem version_of_held {s : Catalogue k} (h : (catalogue k isURL).Reachable s) {device : Nat}
    {o : Nat × k.realmClass.Object} (ho : o ∈ (s.devices device).table.objects) :
    ∃ d ∈ s.versions, k.fields o.2 = k.shown d := by
  have hknown := Replicas.known_of_reachable ((refines_replicas k isURL).reachable h).2
  exact hknown.held device ⟨o, ho, rfl⟩

/-- A version that a step adds is in the collection after it. -/
theorem version_of_step {s s' : Catalogue k} {e : CatalogueEvent} (hi : s.Recorded)
    (h : s.step isURL e = some s') {d : Document} (hd : d ∈ s'.versions) :
    d ∈ s.versions ∨ d ∈ s'.collection := by
  cases hdevice : device? e with
  | some device =>
      obtain ⟨answers, sync, rfl, -⟩ := takes_of_step hdevice h
      exact Or.inl hd
  | none =>
      rcases edit_of_step hi hdevice h with ⟨device, rfl⟩ | ⟨collection, versions, rfl, hversions⟩
      · obtain rfl := Option.some.inj h
        exact Or.inl hd
      · exact (hversions d).mp hd

/-- A version was in the collection at some moment of the run. -/
theorem ever_in_collection {s s' : Catalogue k} (h0 : (catalogue k isURL).init s)
    {es : List CatalogueEvent} (h : (catalogue k isURL).exec s es = some s') {d : Document}
    (hd : d ∈ s'.versions) :
    (catalogue k isURL).Ever (fun t => d ∈ t.collection) s es := by
  have hever := EventMachine.exec_ever (M := catalogue k isURL) Recorded (fun t => d ∈ t.versions)
    (fun t => d ∈ t.collection) (fun _ _ _ hi hs => recorded_step hi hs)
    (fun _ _ _ hi hs hd' => version_of_step hi hs hd') (recorded_of_init h0)
    (fun hd' => h0.1 ▸ hd') es h
  exact hever.2 hd

end Catalogue

/-- **A stored object shows one version.** Its fields are those of a document that the collection
had under its id at some moment of the run. -/
theorem shows_one_version (k : SyncClass) (isURL : String → Bool) (s s' : Catalogue k)
    (h0 : (catalogue k isURL).init s) (es : List CatalogueEvent)
    (h : (catalogue k isURL).exec s es = some s') (device : Nat) :
    ∀ o ∈ (s'.devices device).table.objects, ∃ before after t, es = before ++ after ∧
      (catalogue k isURL).exec s before = some t ∧ ∃ d ∈ t.collection,
        d.documentID = k.realmClass.id o.2 ∧ k.fields o.2 = k.shown d := by
  intro o ho
  obtain ⟨d, hd, hfields⟩ :=
    Catalogue.version_of_held (EventMachine.reachable_of_exec es h0 h) ho
  obtain ⟨before, after, t, hsplit, ht, hmem⟩ := Catalogue.ever_in_collection h0 h hd
  refine ⟨before, after, t, hsplit, ht, d, hmem, ?_, hfields⟩
  rw [← k.id_shown d, ← hfields, k.id_fields]

/-- No document has been published, and no device has asked. -/
def emptyCatalogue (k : SyncClass) : Catalogue k :=
  ⟨[], [], fun _ => [], fun _ => ⟨Table.empty, [], none⟩⟩

theorem init_emptyCatalogue (k : SyncClass) (isURL : String → Bool) :
    (catalogue k isURL).init (emptyCatalogue k) :=
  ⟨rfl, List.nodup_nil, fun _ => rfl, fun _ => rfl⟩

/-- A device asks for the masters, and the answer arrives when the master has another name. -/
def overtakenEvents : List CatalogueEvent :=
  [.addDocument "1" (saveMasterToFirebase { name := "Anna", imageURL := "https://images/anna" }),
    .getDocuments 0, .updateData "1" "name" (.string "Olga"), .arrive 0 0,
    .complete 0 0 (.bytes [1] true)]

theorem shows_one_version_overtaken : ∃ s' : Catalogue .master,
    (s'.devices 0).table.objects.map (fun o : Nat × Master => o.2.name) = ["Anna"] ∧
      ∀ o : Nat × Master, o ∈ (s'.devices 0).table.objects → ∃ before after t, overtakenEvents = before ++ after ∧
        (catalogue .master (fun _ => true)).exec (emptyCatalogue .master) before = some t ∧
        ∃ d ∈ t.collection, d.documentID = o.2.id ∧
          SyncClass.fields .master o.2 = SyncClass.shown .master d := by
  have hrun : ((catalogue .master (fun _ => true)).exec (emptyCatalogue .master)
      overtakenEvents).map (fun s =>
        (s.devices 0).table.objects.map (fun o : Nat × Master => o.2.name))
        = some ["Anna"] := by decide
  obtain ⟨s', hs', hnames⟩ := Option.map_eq_some_iff.mp hrun
  exact ⟨s', hnames, shows_one_version .master (fun _ => true) (emptyCatalogue .master) s'
    (init_emptyCatalogue .master _) overtakenEvents hs' 0⟩

/-! ## Documents that are not edited in place -/

namespace Catalogue

variable {k : SyncClass} {isURL : String → Bool}

/-- A document has one version. -/
def OneVersion (s : Catalogue k) : Prop :=
  ∀ d ∈ s.versions, ∀ d' ∈ s.versions, d.documentID = d'.documentID → d = d'

theorem oneVersion_of_nodup {s : Catalogue k} (h : (s.versions.map (·.documentID)).Nodup) :
    s.OneVersion := fun _ hd _ hd' hid => List.inj_on_of_nodup_map h hd hd' hid

/-- A document gets an id that no document has had. -/
theorem oneVersion_step (hk : k ≠ .master) {s s' : Catalogue k} {e : CatalogueEvent}
    (hi : s.OneVersion) (h : s.step isURL e = some s') : s'.OneVersion := by
  cases hdevice : device? e with
  | some device =>
      obtain ⟨answers, sync, rfl, -⟩ := takes_of_step hdevice h
      exact hi
  | none =>
      cases e with
      | addDocument documentID data =>
          simp only [step] at h
          split_ifs at h with hfresh
          obtain rfl := Option.some.inj h
          have hnew : ∀ d ∈ s.versions, d.documentID ≠ documentID := by
            intro d hd hid
            exact hfresh (List.mem_map.mpr ⟨d, hd, hid⟩)
          intro d hd d' hd' hid
          rcases List.mem_append.mp hd with hd | hd <;> rcases List.mem_append.mp hd' with hd' | hd'
          · exact hi d hd d' hd' hid
          · rw [List.mem_singleton.mp hd'] at hid
            exact absurd hid (hnew d hd)
          · rw [List.mem_singleton.mp hd] at hid
            exact absurd hid.symm (hnew d' hd')
          · rw [List.mem_singleton.mp hd, List.mem_singleton.mp hd']
      | updateData documentID key value =>
          simp only [step, if_neg hk] at h
          cases h
      | delete documentID =>
          obtain rfl := Option.some.inj h
          exact hi
      | getDocuments device =>
          obtain rfl := Option.some.inj h
          exact hi
      | arrive _ _ | arriveError _ _ | complete _ _ _ | deleteObjectRealm _ _
      | updateFavorites _ _ | terminate _ => cases hdevice

theorem oneVersion_of_reachable (hk : k ≠ .master) {s : Catalogue k}
    (h : (catalogue k isURL).Reachable s) : s.OneVersion := by
  refine h.invariant OneVersion ?_ (fun _ _ _ hi _ hs => oneVersion_step hk hi hs)
  rintro s ⟨hversions, hnodup, -⟩
  apply oneVersion_of_nodup
  rw [hversions]
  exact hnodup

/-- An object shows the version that its document has. -/
theorem fields_eq_of_version (hk : k ≠ .master) {s : Catalogue k}
    (h : (catalogue k isURL).Reachable s) {device : Nat} {o : Nat × k.realmClass.Object}
    (ho : o ∈ (s.devices device).table.objects) {d : Document} (hd : d ∈ s.versions)
    (hid : k.realmClass.id o.2 = d.documentID) : k.fields o.2 = k.shown d := by
  obtain ⟨d', hd', hfields⟩ := version_of_held h ho
  have hid' : d'.documentID = d.documentID := by
    rw [← k.id_shown d', ← hfields, k.id_fields, hid]
  rw [hfields, oneVersion_of_reachable hk h d' hd' d hd hid']

/-- A version is remembered. -/
theorem mem_versions_step {s s' : Catalogue k} {e : CatalogueEvent} {d : Document}
    (hi : s.Recorded ∧ d ∈ s.versions) (h : s.step isURL e = some s') :
    s'.Recorded ∧ d ∈ s'.versions := by
  refine ⟨recorded_step hi.1 h, ?_⟩
  cases hdevice : device? e with
  | some device =>
      obtain ⟨answers, sync, rfl, -⟩ := takes_of_step hdevice h
      exact hi.2
  | none =>
      rcases edit_of_step hi.1 hdevice h with ⟨device, rfl⟩ | ⟨collection, versions, rfl, hversions⟩
      · obtain rfl := Option.some.inj h
        exact hi.2
      · exact (hversions d).mpr (Or.inl hi.2)

theorem added_mem_versions {s s' : Catalogue k} (hi : s.Recorded) {es : List CatalogueEvent}
    (h : (catalogue k isURL).exec s es = some s') {documentID : String} {data : DocData}
    (hadd : .addDocument documentID data ∈ es) : ⟨documentID, data⟩ ∈ s'.versions := by
  obtain ⟨before, after, t, u, -, hbefore, hstep, hafter⟩ := EventMachine.exec_of_mem hadd h
  have ht : t.Recorded :=
    EventMachine.exec_keeps (M := catalogue k isURL) (fun _ _ _ hi hs => recorded_step hi hs) hi
      hbefore
  have hu : u.Recorded ∧ (⟨documentID, data⟩ : Document) ∈ u.versions := by
    replace hstep : t.step isURL (.addDocument documentID data) = some u := hstep
    refine ⟨recorded_step ht hstep, ?_⟩
    simp only [step] at hstep
    split_ifs at hstep
    obtain rfl := Option.some.inj hstep
    exact List.mem_append_right _ (List.mem_singleton_self _)
  exact (EventMachine.exec_keeps (M := catalogue k isURL)
    (fun _ _ _ hi hs => mem_versions_step hi hs) hu hafter).2

end Catalogue

/-- **All devices agree.** Two stored objects with one id, on one device or on two, have the same
fields, and they are those of the document with this id, if it is still there. -/
theorem devices_agree (k : SyncClass) (hk : k ≠ .master) (isURL : String → Bool) (s : Catalogue k)
    (h : (catalogue k isURL).Reachable s) (device : Nat) :
    ∀ o ∈ (s.devices device).table.objects,
      (∀ device', ∀ o' ∈ (s.devices device').table.objects,
        k.realmClass.id o.2 = k.realmClass.id o'.2 → k.fields o.2 = k.fields o'.2) ∧
      ∀ d ∈ s.collection, k.realmClass.id o.2 = d.documentID → k.fields o.2 = k.shown d := by
  intro o ho
  have hrecorded : s.Recorded :=
    h.invariant Catalogue.Recorded (fun _ h0 => Catalogue.recorded_of_init h0)
      (fun _ _ _ hi _ hs => Catalogue.recorded_step hi hs)
  constructor
  · intro device' o' ho' hid
    obtain ⟨d, hd, hfields⟩ := Catalogue.version_of_held h ho'
    rw [hfields]
    refine Catalogue.fields_eq_of_version hk h ho hd ?_
    rw [hid, ← k.id_fields, hfields, k.id_shown]
  · intro d hd hid
    exact Catalogue.fields_eq_of_version hk h ho (hrecorded d hd) hid

/-- A discont that two devices have fetched, one of them twice. -/
def fetchedEvents : List CatalogueEvent :=
  [.addDocument "1" (saveDiscontToFirebase { name := "-20%", imageURL := "https://images/sale" }),
    .getDocuments 0, .getDocuments 0, .getDocuments 1, .arrive 0 0, .arrive 0 0, .arrive 1 0,
    .complete 0 0 (.bytes [1] true), .complete 0 0 (.bytes [1] true),
    .complete 1 0 (.bytes [2] true)]

theorem devices_agree_fetched : ∃ s : Catalogue .discont,
    (s.devices 0).ids = ["1", "1"] ∧ (s.devices 1).ids = ["1"] ∧
      ∀ o : Nat × Discont, o ∈ (s.devices 0).table.objects →
        (∀ device', ∀ o' : Nat × Discont, o' ∈ (s.devices device').table.objects →
          o.2.id = o'.2.id →
          SyncClass.fields .discont o.2 = SyncClass.fields .discont o'.2) ∧
        ∀ d ∈ s.collection, o.2.id = d.documentID →
          SyncClass.fields .discont o.2 = SyncClass.shown .discont d := by
  have hrun : ((catalogue .discont (fun _ => true)).exec (emptyCatalogue .discont)
      fetchedEvents).map (fun s => ((s.devices 0).ids, (s.devices 1).ids))
        = some (["1", "1"], ["1"]) := by decide
  obtain ⟨s, hs, hids⟩ := Option.map_eq_some_iff.mp hrun
  obtain ⟨hfirst, hsecond⟩ := Prod.mk.inj hids
  exact ⟨s, hfirst, hsecond, devices_agree .discont nofun (fun _ => true) s
    (EventMachine.reachable_of_exec _ (init_emptyCatalogue .discont _) hs) 0⟩

/-- **What was saved is what is shown.** A service or a discont that an editor has published is
stored on every device, if at all, with the texts it was published with; a service without its
`comsmetology` and its start times. -/
theorem shows_what_was_saved (isURL : String → Bool) :
    (∀ (s s' : Catalogue .service) (es : List CatalogueEvent),
      (catalogue .service isURL).init s → (catalogue .service isURL).exec s es = some s' →
      ∀ (documentID : String) (service : Service) (appTime : List Int),
        .addDocument documentID (saveServiceToFirebase service appTime) ∈ es →
        ∀ (device : Nat) (o : Nat × Service), o ∈ (s'.devices device).table.objects →
          o.2.id = documentID →
          SyncClass.fields .service o.2 = { service with
            id := documentID, image := none, favorites := false, comsmetology := "",
            appTime := [] }) ∧
    ∀ (s s' : Catalogue .discont) (es : List CatalogueEvent),
      (catalogue .discont isURL).init s → (catalogue .discont isURL).exec s es = some s' →
      ∀ (documentID : String) (discont : Discont),
        .addDocument documentID (saveDiscontToFirebase discont) ∈ es →
        ∀ (device : Nat) (o : Nat × Discont), o ∈ (s'.devices device).table.objects →
          o.2.id = documentID →
          SyncClass.fields .discont o.2 = { discont with id := documentID, image := none } := by
  constructor
  · intro s s' es h0 h documentID service appTime hadd device o ho hid
    have hversion := Catalogue.added_mem_versions (Catalogue.recorded_of_init h0) h hadd
    exact Catalogue.fields_eq_of_version (k := .service) nofun
      (EventMachine.reachable_of_exec es h0 h) ho hversion hid
  · intro s s' es h0 h documentID discont hadd device o ho hid
    have hversion := Catalogue.added_mem_versions (Catalogue.recorded_of_init h0) h hadd
    exact Catalogue.fields_eq_of_version (k := .discont) nofun
      (EventMachine.reachable_of_exec es h0 h) ho hversion hid

/-- A service that one device has fetched. -/
def publishedService : Service :=
  { nameService := "Маникюр", comsmetology := "Гель", imageURL := "https://images/gel" }

theorem shows_what_was_saved_fetched :
    (∃ s' : Catalogue .service, (s'.devices 0).ids = ["1"] ∧
      ∀ o : Nat × Service, o ∈ (s'.devices 0).table.objects → o.2.id = "1" →
        SyncClass.fields .service o.2 = { publishedService with
          id := "1", image := none, favorites := false, comsmetology := "", appTime := [] }) ∧
    ∃ s' : Catalogue .discont, (s'.devices 1).ids = ["1"] ∧
      ∀ o : Nat × Discont, o ∈ (s'.devices 1).table.objects → o.2.id = "1" →
        SyncClass.fields .discont o.2
          = { name := "-20%", imageURL := "https://images/sale", id := "1", image := none } := by
  constructor
  · have hrun : ((catalogue .service (fun _ => true)).exec (emptyCatalogue .service)
        [.addDocument "1" (saveServiceToFirebase publishedService []), .getDocuments 0, .arrive 0 0,
          .complete 0 0 (.bytes [1] true)]).map (fun s => (s.devices 0).ids) = some ["1"] := by
      decide
    obtain ⟨s', hs', hids⟩ := Option.map_eq_some_iff.mp hrun
    refine ⟨s', hids, fun o ho hid => ?_⟩
    exact (shows_what_was_saved (fun _ => true)).1 _ s' _ (init_emptyCatalogue .service _) hs' "1"
      publishedService [] List.mem_cons_self 0 o ho hid
  · have hrun : ((catalogue .discont (fun _ => true)).exec (emptyCatalogue .discont)
        fetchedEvents).map (fun s => (s.devices 1).ids) = some ["1"] := by decide
    obtain ⟨s', hs', hids⟩ := Option.map_eq_some_iff.mp hrun
    refine ⟨s', hids, fun o ho hid => ?_⟩
    exact (shows_what_was_saved (fun _ => true)).2 _ s' _ (init_emptyCatalogue .discont _) hs' "1"
      { name := "-20%", imageURL := "https://images/sale" } List.mem_cons_self 1 o ho hid

/-! ## Deleted documents -/

namespace Catalogue

variable {k : SyncClass} {isURL : String → Bool}

/-- The document of an id is deleted, and it is not on its way to the device. -/
structure Gone (documentID : String) (device : Nat) (s : Catalogue k) : Prop where
  recorded : s.Recorded
  used : documentID ∈ s.versions.map (·.documentID)
  collection : ∀ d ∈ s.collection, d.documentID ≠ documentID
  underway : ∀ d ∈ s.underway device, d.documentID ≠ documentID

/-- The device has no object of the id. -/
def Lacks (documentID : String) (device : Nat) (s : Catalogue k) : Prop :=
  documentID ∉ (s.devices device).ids

/-- A step brings no id into the collection that a document has had before. -/
theorem collection_of_step {s s' : Catalogue k} {e : CatalogueEvent}
    (h : s.step isURL e = some s') {d : Document} (hd : d ∈ s'.collection) :
    (∃ d' ∈ s.collection, d'.documentID = d.documentID) ∨
      d.documentID ∉ s.versions.map (·.documentID) := by
  cases hdevice : device? e with
  | some device =>
      obtain ⟨answers, sync, rfl, -⟩ := takes_of_step hdevice h
      exact Or.inl ⟨d, hd, rfl⟩
  | none =>
      cases e with
      | addDocument documentID data =>
          simp only [step] at h
          split_ifs at h with hfresh
          obtain rfl := Option.some.inj h
          rcases List.mem_append.mp hd with hd | hd
          · exact Or.inl ⟨d, hd, rfl⟩
          · rw [List.mem_singleton.mp hd]
            exact Or.inr hfresh
      | updateData documentID key value =>
          simp only [step] at h
          split_ifs at h
          obtain rfl := Option.some.inj h
          obtain ⟨d', hd', rfl⟩ := List.mem_map.mp hd
          refine Or.inl ⟨d', hd', ?_⟩
          split_ifs with hid
          · exact beq_iff_eq.mp hid
          · rfl
      | delete documentID =>
          obtain rfl := Option.some.inj h
          exact Or.inl ⟨d, (mem_deleteDoc.mp hd).1, rfl⟩
      | getDocuments device =>
          obtain rfl := Option.some.inj h
          exact Or.inl ⟨d, hd, rfl⟩
      | arrive _ _ | arriveError _ _ | complete _ _ _ | deleteObjectRealm _ _
      | updateFavorites _ _ | terminate _ => cases hdevice

/-- What comes on its way to a device is in the collection. -/
theorem underway_of_step {s s' : Catalogue k} {e : CatalogueEvent} (hi : s.Recorded)
    (h : s.step isURL e = some s') {device : Nat} {d : Document} (hd : d ∈ s'.underway device) :
    d ∈ s.underway device ∨ d ∈ s.collection := by
  cases hdevice : device? e with
  | some device' =>
      obtain ⟨answers, sync, rfl, htakes⟩ := takes_of_step hdevice h
      left
      by_cases hne : device = device'
      · subst hne
        simp only [underway, withDevice, Function.update_self] at hd
        exact htakes.underway d hd
      · simpa only [underway, withDevice, Function.update_of_ne hne] using hd
  | none =>
      rcases edit_of_step hi hdevice h with ⟨device', rfl⟩ | ⟨collection, versions, rfl, -⟩
      · obtain rfl := Option.some.inj h
        by_cases hne : device = device'
        · subst hne
          simp only [underway, Function.update_self, List.flatten_append, List.flatten_singleton,
            List.mem_append] at hd ⊢
          rcases hd with (hd | hd) | hd
          · exact Or.inl (Or.inl hd)
          · exact Or.inr (mem_inIdOrder.mp hd)
          · exact Or.inl (Or.inr hd)
        · left
          simpa only [underway, Function.update_of_ne hne] using hd
      · exact Or.inl hd

theorem gone_step {s s' : Catalogue k} {e : CatalogueEvent} {documentID : String} {device : Nat}
    (hi : s.Gone documentID device) (h : s.step isURL e = some s') :
    s'.Gone documentID device := by
  refine ⟨recorded_step hi.recorded h, ?_, ?_, ?_⟩
  · obtain ⟨d, hd, hid⟩ := List.mem_map.mp hi.used
    exact List.mem_map.mpr ⟨d, (mem_versions_step ⟨hi.recorded, hd⟩ h).2, hid⟩
  · intro d hd
    rcases collection_of_step h hd with ⟨d', hd', hid⟩ | hfresh
    · rw [← hid]
      exact hi.collection d' hd'
    · rintro rfl
      exact hfresh hi.used
  · intro d hd
    rcases underway_of_step hi.recorded h hd with hd | hd
    · exact hi.underway d hd
    · exact hi.collection d hd

/-- What is not on its way to a device does not come to it. -/
theorem lacks_step {s s' : Catalogue k} {e : CatalogueEvent} {documentID : String} {device : Nat}
    (hi : s.Gone documentID device) (hlacks : s.Lacks documentID device)
    (h : s.step isURL e = some s') : s'.Lacks documentID device := by
  intro hmem
  obtain ⟨o, ho, hid⟩ := List.mem_map.mp hmem
  have hold : ∀ o' ∈ (s.devices device).table.objects, k.realmClass.id o'.2 ≠ documentID := by
    intro o' ho' hid'
    exact hlacks (List.mem_map.mpr ⟨o', ho', hid'⟩)
  cases hdevice : device? e with
  | some device' =>
      obtain ⟨answers, sync, rfl, htakes⟩ := takes_of_step hdevice h
      by_cases hne : device = device'
      · subst hne
        simp only [withDevice, Function.update_self] at ho
        rw [← k.id_fields] at hid
        rcases htakes.held o ho with ⟨o', ho', hfields⟩ | ⟨d, hd, hfields⟩
        · rw [hfields, k.id_fields] at hid
          exact hold o' ho' hid
        · rw [hfields, k.id_shown] at hid
          exact hi.underway d hd hid
      · simp only [withDevice, Function.update_of_ne hne] at ho
        exact hold o ho hid
  | none =>
      rcases edit_of_step hi.recorded hdevice h with ⟨device', rfl⟩ | ⟨collection, versions, rfl, -⟩
      · obtain rfl := Option.some.inj h
        exact hold o ho hid
      · exact hold o ho hid

/-- An answer without the document takes its object away. -/
theorem lacks_arrive {s s' : Catalogue k} {documentID : String} {device i : Nat}
    (hi : s.Gone documentID device) (h : s.step isURL (.arrive device i) = some s') :
    s'.Lacks documentID device := by
  obtain ⟨documents, hanswer, h⟩ := Option.bind_eq_some_iff.mp h
  obtain ⟨sync, hsync, rfl⟩ := onDevice_eq_some h
  intro hmem
  obtain ⟨o, ho, hid⟩ := List.mem_map.mp hmem
  simp only [withDevice, Function.update_self] at ho
  obtain ⟨-, -, hdoc⟩ := (SyncState.mem_processSnapshot hsync).mp ho
  obtain ⟨d, hd, heq⟩ := List.mem_map.mp hdoc
  refine hi.underway d (List.mem_append_left _ ?_) (heq.trans hid)
  exact List.mem_flatten.mpr ⟨documents, List.mem_of_getElem? hanswer, hd⟩

end Catalogue

/-- **Deleted for good.** The document of an id is deleted, and neither an answer nor a download has
it on its way to a device. Whatever happens then on any device, the next answer that arrives takes
the object of this id from the device, if it has one, and no object of this id is stored there
again. -/
theorem deleted_for_good (k : SyncClass) (isURL : String → Bool) (s s' : Catalogue k)
    (hs : (catalogue k isURL).Reachable s) (documentID : String) (device : Nat)
    (hused : documentID ∈ s.versions.map (·.documentID))
    (hdeleted : documentID ∉ s.collection.map (·.documentID))
    (hunderway : documentID ∉ (s.underway device).map (·.documentID))
    (es : List CatalogueEvent) (h : (catalogue k isURL).exec s es = some s')
    (harrived : documentID ∈ (s.devices device).ids → ∃ i, .arrive device i ∈ es) :
    documentID ∉ (s'.devices device).ids := by
  have hgone : s.Gone documentID device := by
    refine ⟨?_, hused, ?_, ?_⟩
    · exact hs.invariant Catalogue.Recorded (fun _ h0 => Catalogue.recorded_of_init h0)
        (fun _ _ _ hi _ hstep => Catalogue.recorded_step hi hstep)
    · exact fun d hd hid => hdeleted (List.mem_map.mpr ⟨d, hd, hid⟩)
    · exact fun d hd hid => hunderway (List.mem_map.mpr ⟨d, hd, hid⟩)
  have hkeeps : ∀ {t t' : Catalogue k} {events : List CatalogueEvent},
      t.Gone documentID device → t.Lacks documentID device →
      (catalogue k isURL).exec t events = some t' → t'.Lacks documentID device := by
    intro t t' events hi hlacks hrun
    refine (EventMachine.exec_keeps (M := catalogue k isURL)
      (P := fun t => t.Gone documentID device ∧ t.Lacks documentID device) ?_ ⟨hi, hlacks⟩ hrun).2
    exact fun _ _ _ hboth hstep =>
      ⟨Catalogue.gone_step hboth.1 hstep, Catalogue.lacks_step hboth.1 hboth.2 hstep⟩
  by_cases hstored : documentID ∈ (s.devices device).ids
  · -- the answer arrives between two states of the run
    obtain ⟨i, hmem⟩ := harrived hstored
    obtain ⟨before, after, t, u, -, hbefore, harrive, hafter⟩ := EventMachine.exec_of_mem hmem h
    replace harrive : t.step isURL (.arrive device i) = some u := harrive
    have ht : t.Gone documentID device :=
      EventMachine.exec_keeps (M := catalogue k isURL) (fun _ _ _ hi hstep =>
        Catalogue.gone_step hi hstep) hgone hbefore
    exact hkeeps (Catalogue.gone_step ht harrive) (Catalogue.lacks_arrive ht harrive) hafter
  · exact hkeeps hgone hstored h

/-- A discont that has been fetched is deleted. -/
def deletedEvents : List CatalogueEvent :=
  [.addDocument "1" (saveDiscontToFirebase { name := "-20%", imageURL := "https://images/sale" }),
    .getDocuments 0, .arrive 0 0, .complete 0 0 (.bytes [1] true), .delete "1"]

theorem deleted_for_good_answered : ∃ s s' : Catalogue .discont,
    (s.devices 0).ids = ["1"] ∧
      (catalogue .discont (fun _ => true)).exec s [.getDocuments 0, .arrive 0 0] = some s' ∧
      "1" ∉ (s'.devices 0).ids := by
  have hrun : ((catalogue .discont (fun _ => true)).exec (emptyCatalogue .discont)
      deletedEvents).map (fun s => ((s.devices 0).ids, s.versions.map (·.documentID),
        s.collection.map (·.documentID), (s.underway 0).map (·.documentID),
        ((catalogue .discont (fun _ => true)).exec s [.getDocuments 0, .arrive 0 0]).isSome))
      = some (["1"], ["1"], [], [], true) := by decide
  obtain ⟨s, hs, hend⟩ := Option.map_eq_some_iff.mp hrun
  simp only [Prod.mk.injEq] at hend
  obtain ⟨hids, hversions, hcollection, hunderway, hsome⟩ := hend
  obtain ⟨s', hs'⟩ := Option.isSome_iff_exists.mp hsome
  have hreach := EventMachine.reachable_of_exec _ (init_emptyCatalogue .discont _) hs
  refine ⟨s, s', hids, hs', ?_⟩
  exact deleted_for_good .discont (fun _ => true) s s' hreach "1" 0
    (by rw [hversions]; decide) (by rw [hcollection]; decide) (by rw [hunderway]; decide) _ hs'
    (fun _ => ⟨0, by simp⟩)

end Flamingo
