import Flamingo.DBManager.MasterIds

set_option autoImplicit false

/-! # The screen of a master

`AddNewMasterVC` is opened from the list of masters in one of two modes: to edit the master
`masterUpdate`, or to show the master `master`. Both modes look up the services of `master.id`; in
edit mode `master` is the one that the screen was made with, whose id is empty, and the empty text is
a component of every list of ids.
-/

namespace Flamingo

/-- The controller with what its code sets of its outlets: the image, the texts and whether the two
buttons can be pressed. -/
structure AddNewMasterVC where
  master : Master := {}
  masterUpdate : Master := {}
  viewFlg : Bool := false
  services : Results Service := []
  imageMaster : Option ImageData
  nameMaster : String
  profilMaster : String
  infoMaster : String
  saveButton : Bool := true
  photoButton : Bool := true

namespace AddNewMasterVC

/-- The screen as the storyboard makes it. -/
def fromStoryboard (image : Option ImageData) (nameMaster profilMaster infoMaster : String) :
    AddNewMasterVC where
  imageMaster := image
  nameMaster := nameMaster
  profilMaster := profilMaster
  infoMaster := infoMaster

def editingMode (realm : Realm) (objects : Results Service) (vc : AddNewMasterVC) :
    AddNewMasterVC :=
  if !vc.masterUpdate.id.isEmpty then
    let vc := { vc with
      -- `master`, not `masterUpdate`
      services := getServicesMaster realm objects vc.master.id
      nameMaster := vc.masterUpdate.name
      profilMaster := vc.masterUpdate.profil
      infoMaster := vc.masterUpdate.info }
    match vc.masterUpdate.image with
    | none => vc
    | some imageData => { vc with imageMaster := some imageData }
  else vc

def presentViewSetup (realm : Realm) (objects : Results Service) (vc : AddNewMasterVC) :
    AddNewMasterVC :=
  if vc.viewFlg then
    let vc := { vc with
      services := getServicesMaster realm objects vc.master.id
      saveButton := false
      photoButton := false }
    match vc.master.image with
    | none => vc
    | some imageData => { vc with
        imageMaster := some imageData
        nameMaster := vc.master.name
        profilMaster := vc.master.profil
        infoMaster := vc.master.info }
  else vc

def viewDidLoad (realm : Realm) (objects : Results Service) (vc : AddNewMasterVC) :
    AddNewMasterVC :=
  (vc.editingMode realm objects).presentViewSetup realm objects

end AddNewMasterVC

/-! ## The list of masters -/

structure MastersVC where
  masters : Results Master
  indexPathRowUpdate : Nat

inductive MastersSegue
  | updateMasterSegue
  /-- with `indexPathForSelectedRow` -/
  | presentMaster (row : Option Nat)

/-- `prepare(for:sender:)`; an index out of range traps. -/
def MastersVC.prepare (vc : MastersVC) (destinationVC : AddNewMasterVC) :
    MastersSegue → Option AddNewMasterVC
  | .updateMasterSegue =>
      vc.masters[vc.indexPathRowUpdate]?.map (fun m => { destinationVC with masterUpdate := m.2 })
  | .presentMaster none => some destinationVC
  | .presentMaster (some row) =>
      vc.masters[row]?.map (fun m => { destinationVC with master := m.2, viewFlg := true })

namespace AddNewMasterVC

/-! ## The two modes -/

/-- The services in edit mode are those of the empty id. -/
theorem services_of_edit (realm : Realm) (objects : Results Service) {vc : AddNewMasterVC}
    (hview : vc.viewFlg = false) :
    (vc.viewDidLoad realm objects).services
      = if vc.masterUpdate.id = "" then vc.services
        else getServicesMaster realm objects vc.master.id := by
  have hmode : (vc.editingMode realm objects).viewFlg = false := by
    unfold editingMode
    dsimp only
    split_ifs
    · cases vc.masterUpdate.image <;> exact hview
    · exact hview
  rw [viewDidLoad, presentViewSetup, if_neg (by rw [hmode]; exact Bool.false_ne_true), editingMode]
  by_cases hid : vc.masterUpdate.id = ""
  · rw [if_pos hid, if_neg (by simp [hid])]
  · rw [if_neg hid, if_pos (by simpa using hid)]
    dsimp only
    cases vc.masterUpdate.image <;> rfl

/-- In view mode they are those of the master that is shown. -/
theorem services_of_view (realm : Realm) (objects : Results Service) {vc : AddNewMasterVC}
    (hview : vc.viewFlg = true) :
    (vc.viewDidLoad realm objects).services = getServicesMaster realm objects vc.master.id := by
  have hmode : (vc.editingMode realm objects).viewFlg = true ∧
      (vc.editingMode realm objects).master = vc.master := by
    unfold editingMode
    dsimp only
    split_ifs
    · cases vc.masterUpdate.image <;> exact ⟨hview, rfl⟩
    · exact ⟨hview, rfl⟩
  rw [viewDidLoad, presentViewSetup, if_pos hmode.1, ← hmode.2]
  dsimp only
  cases (vc.editingMode realm objects).master.image <;> rfl

/-- The master of a row, opened in both modes. -/
def SameInBothModes (realm : Realm) (objects : Results Service) (list : MastersVC)
    (fresh : AddNewMasterVC) (m : Nat × Master) : Prop :=
  ∃ edit view, list.prepare fresh .updateMasterSegue = some edit ∧
    list.prepare fresh (.presentMaster (some list.indexPathRowUpdate)) = some view ∧
    (edit.viewDidLoad realm objects).services = (view.viewDidLoad realm objects).services ∧
    ∀ s, s ∈ (view.viewDidLoad realm objects).services ↔ s ∈ objects ∧ s.2.Lists m.2.id

/-- Every service lists every id that the empty text stands for. -/
theorem getServicesMaster_empty (realm : Realm) {objects : Results Service}
    (hpublished : ∀ s ∈ objects, ∃ added, s.2.idsMasters = AddNewServiceVC.getMasterIds added) :
    getServicesMaster realm objects "" = objects.sorted realm (·.nameService) := by
  apply List.filter_eq_self.mpr
  intro s hs
  obtain ⟨added, hadded⟩ :=
    hpublished s ((Results.sorted_perm realm (·.nameService) objects).subset hs)
  exact List.contains_iff_mem.mpr (lists_empty hadded)

/-- A lookup finds all services if they all list the id. -/
theorem getServicesMaster_eq_all_iff (realm : Realm) {objects : Results Service} {id : String} :
    getServicesMaster realm objects id = objects.sorted realm (·.nameService) ↔
      ∀ s ∈ objects, s.2.Lists id := by
  rw [getServicesMaster, Results.filter, List.filter_eq_self]
  constructor
  · intro hall s hs
    have hmem : s ∈ objects.sorted realm (·.nameService) :=
      (Results.sorted_perm realm _ objects).symm.subset hs
    exact List.contains_iff_mem.mp (hall s hmem)
  · intro hall s hs
    exact List.contains_iff_mem.mpr (hall s ((Results.sorted_perm realm _ objects).subset hs))

theorem sameInBothModes_iff_services {realm : Realm} {objects : Results Service}
    {list : MastersVC} {m : Nat × Master} (image : Option ImageData)
    (nameMaster profilMaster infoMaster : String)
    (hrow : list.masters[list.indexPathRowUpdate]? = some m) :
    SameInBothModes realm objects list (fromStoryboard image nameMaster profilMaster infoMaster) m ↔
      (if m.2.id = "" then [] else getServicesMaster realm objects "")
        = getServicesMaster realm objects m.2.id := by
  have hedit : list.prepare (fromStoryboard image nameMaster profilMaster infoMaster)
      .updateMasterSegue = some { fromStoryboard image nameMaster profilMaster infoMaster with
        masterUpdate := m.2 } := by
    rw [MastersVC.prepare, hrow, Option.map_some]
  have hview : list.prepare (fromStoryboard image nameMaster profilMaster infoMaster)
      (.presentMaster (some list.indexPathRowUpdate))
        = some { fromStoryboard image nameMaster profilMaster infoMaster with
          master := m.2, viewFlg := true } := by
    rw [MastersVC.prepare, hrow, Option.map_some]
  constructor
  · rintro ⟨edit, view, hedit', hview', hsame, -⟩
    obtain rfl := Option.some.inj (hedit.symm.trans hedit')
    obtain rfl := Option.some.inj (hview.symm.trans hview')
    rw [services_of_edit realm objects rfl, services_of_view realm objects rfl] at hsame
    exact hsame
  · intro hsame
    refine ⟨_, _, hedit, hview, ?_, ?_⟩
    · rw [services_of_edit realm objects rfl, services_of_view realm objects rfl]
      exact hsame
    · intro s
      rw [services_of_view realm objects rfl]
      exact mem_getServicesMaster

end AddNewMasterVC

/-- **The two modes show the same services** exactly if every service lists the master, and there
is none if the master's id is empty. -/
theorem sameInBothModes_iff (realm : Realm) (objects : Results Service) (list : MastersVC)
    (m : Nat × Master) (image : Option ImageData) (nameMaster profilMaster infoMaster : String)
    (hrow : list.masters[list.indexPathRowUpdate]? = some m)
    (hpublished : ∀ s ∈ objects, ∃ added, s.2.idsMasters = AddNewServiceVC.getMasterIds added) :
    AddNewMasterVC.SameInBothModes realm objects list
        (.fromStoryboard image nameMaster profilMaster infoMaster) m ↔
      (∀ s ∈ objects, s.2.Lists m.2.id) ∧ (m.2.id = "" → objects = []) := by
  rw [AddNewMasterVC.sameInBothModes_iff_services image nameMaster profilMaster infoMaster hrow]
  by_cases hid : m.2.id = ""
  · -- the screen is not in edit mode, and the view mode shows every service
    rw [if_pos hid, hid, AddNewMasterVC.getServicesMaster_empty realm hpublished]
    constructor
    · intro hnil
      have hempty : objects = [] :=
        List.Perm.nil_eq (hnil ▸ Results.sorted_perm realm _ objects) |>.symm
      rw [hempty]
      exact ⟨fun s hs => absurd hs List.not_mem_nil, fun _ => rfl⟩
    · rintro ⟨-, hempty⟩
      rw [hempty rfl]
      rfl
  · rw [if_neg hid, AddNewMasterVC.getServicesMaster_empty realm hpublished, eq_comm,
      AddNewMasterVC.getServicesMaster_eq_all_iff]
    exact ⟨fun hall => ⟨hall, fun hempty => absurd hempty hid⟩, And.left⟩

/-- The masters "1" and "2", with the list at the row of one of them, and a service of the
master "1". -/
def masterList (row : Nat) : MastersVC where
  masters := [(0, { id := "1" }), (1, { id := "2" })]
  indexPathRowUpdate := row

def serviceOfOne : Results Service :=
  [(0, { id := "service", idsMasters := AddNewServiceVC.getMasterIds [{ id := "1" }] })]

theorem sameInBothModes_one : AddNewMasterVC.SameInBothModes plainRealm serviceOfOne (masterList 0)
    (.fromStoryboard none "" "" "") (0, { id := "1" }) := by
  refine (sameInBothModes_iff plainRealm serviceOfOne (masterList 0) (0, { id := "1" }) none "" ""
    "" rfl ?_).mpr (by decide)
  intro s hs
  rw [List.mem_singleton.mp hs]
  exact ⟨_, rfl⟩

/-- **The services of another master.** In edit mode the master "2" has the service of "1". -/
theorem not_sameInBothModes : ¬ ∀ (realm : Realm) (objects : Results Service) (list : MastersVC)
    (m : Nat × Master) (image : Option ImageData) (nameMaster profilMaster infoMaster : String),
    list.masters[list.indexPathRowUpdate]? = some m →
    (∀ s ∈ objects, ∃ added, s.2.idsMasters = AddNewServiceVC.getMasterIds added) →
    AddNewMasterVC.SameInBothModes realm objects list
      (.fromStoryboard image nameMaster profilMaster infoMaster) m := by
  intro hall
  have hpublished : ∀ s ∈ serviceOfOne, ∃ added,
      s.2.idsMasters = AddNewServiceVC.getMasterIds added := by
    intro s hs
    rw [List.mem_singleton.mp hs]
    exact ⟨_, rfl⟩
  obtain ⟨edit, view, hedit, hview, hsame, -⟩ := hall plainRealm serviceOfOne (masterList 1)
    (1, { id := "2" }) none "" "" "" rfl hpublished
  obtain rfl := Option.some.inj hedit
  obtain rfl := Option.some.inj hview
  have hlengths := congrArg List.length hsame
  exact absurd hlengths (by decide)

end Flamingo
