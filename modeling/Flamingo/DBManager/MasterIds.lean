import Flamingo.Lib.Separated
import Flamingo.DBManager.Results
import Flamingo.PresentService.DetailServiceVC

set_option autoImplicit false

/-! # The masters of a service

A service names its masters in one string: the editor writes the ids with a comma before each, and
the string is split at the commas wherever the masters of a service or the services of a master are
looked up.
-/

namespace Flamingo

namespace AddNewServiceVC

def getMasterIds (arrayMasterAdded : List Master) : String :=
  arrayMasterAdded.foldl (fun masterIds master => masterIds ++ ("," ++ master.id)) ""

end AddNewServiceVC

/-- The ids of a service, among which those who look it up look for one. -/
def Service.Lists (service : Service) (id : String) : Prop :=
  id.toList ∈ Text.components service.idsMasters ','

instance (service : Service) (id : String) : Decidable (service.Lists id) :=
  inferInstanceAs (Decidable (_ ∈ _))

/-- `StorageManager.getServicesMaster`; the ids are texts in one normal form. -/
def getServicesMaster (realm : Realm) (services : Results Service) (id : String) :
    Results Service :=
  (services.sorted realm (·.nameService)).filter (fun service =>
    let idsMaster := Text.components service.idsMasters ','
    idsMaster.contains id.toList)

/-! ## The string of the ids -/

/-- The loop over the masters packs their ids. -/
theorem toList_getMasterIds (added : List Master) :
    (AddNewServiceVC.getMasterIds added).toList
      = Separated.pack ',' (added.map (fun master => master.id.toList)) := by
  have hloop : ∀ (added : List Master) (masterIds : String),
      (added.foldl (fun masterIds master => masterIds ++ ("," ++ master.id)) masterIds).toList
        = masterIds.toList ++ Separated.pack ',' (added.map (fun master => master.id.toList)) := by
    intro added
    -- induction on the masters, for any string that the loop has made so far
    induction added with
    | nil =>
        intro masterIds
        simp [Separated.pack]
    | cons master added ih =>
        intro masterIds
        rw [List.foldl_cons, ih, List.map_cons, Separated.pack_cons, String.toList_append,
          String.toList_append, List.append_assoc]
        simp
  rw [AddNewServiceVC.getMasterIds, hloop]
  simp

/-- A service that was published for some masters lists their ids, and the empty text. -/
theorem lists_of_getMasterIds {service : Service} {added : List Master}
    (hpublished : service.idsMasters = AddNewServiceVC.getMasterIds added)
    (hcomma : ∀ master ∈ added, ',' ∉ master.id.toList) {id : String} (hid : id ≠ "") :
    service.Lists id ↔ id ∈ added.map (·.id) := by
  have hitems : ∀ x ∈ added.map (fun master => master.id.toList), ',' ∉ x := by
    intro x hx
    obtain ⟨master, hmaster, rfl⟩ := List.mem_map.mp hx
    exact hcomma master hmaster
  have hne : id.toList ≠ [] := by
    rw [Ne, String.toList_eq_nil_iff]
    exact hid
  rw [Service.Lists, Text.components, hpublished, toList_getMasterIds,
    Separated.mem_splitOn_pack hitems hne, List.mem_map, List.mem_map]
  simp only [String.toList_inj]

theorem lists_empty {service : Service} {added : List Master}
    (hpublished : service.idsMasters = AddNewServiceVC.getMasterIds added) :
    service.Lists "" := by
  rw [Service.Lists, Text.components, hpublished, toList_getMasterIds]
  exact Separated.nil_mem_splitOn_pack _ _

/-! ## The two lookups -/

theorem mem_getMasterFromTheDataBase {service : Service} {masters : Results Master}
    {m : Nat × Master} :
    m ∈ getMasterFromTheDataBase service masters ↔ m ∈ masters ∧ service.Lists m.2.id := by
  rw [getMasterFromTheDataBase, Results.filter, List.mem_filter, List.contains_iff_mem]
  rfl

theorem mem_getServicesMaster {realm : Realm} {services : Results Service} {id : String}
    {s : Nat × Service} :
    s ∈ getServicesMaster realm services id ↔ s ∈ services ∧ s.2.Lists id := by
  rw [getServicesMaster, Results.filter, List.mem_filter, List.contains_iff_mem,
    (Results.sorted_perm realm _ services).mem_iff]
  rfl

/-- The services of a master are those that list it, each once, in the order of their names. -/
theorem getServicesMaster_spec (realm : Realm) (services : Results Service) (id : String) :
    (getServicesMaster realm services id).Pairwise
        (fun a b => realm.le a.2.nameService b.2.nameService = true) ∧
      (getServicesMaster realm services id).Perm
        (services.filter (fun service => decide (service.Lists id))) := by
  constructor
  · exact (Results.sorted_pairwise realm _ services).filter _
  · refine ((Results.sorted_perm realm _ services).filter _).trans (List.Perm.of_eq ?_)
    apply List.filter_congr
    intro s _
    rw [Bool.eq_iff_iff, List.contains_iff_mem, decide_eq_true_eq]
    rfl

/-! ## The relation -/

/-- **The relation of masters and services** is read as it was written, from both sides. -/
theorem masterRelation_both_ways (realm : Realm) (masters : Table Master)
    (services : Table Service) (hids : ∀ m ∈ masters.objects, m.2.id ≠ "") :
    (∀ (added : List Master) (service : Service),
        (∀ master ∈ added, master.id ≠ "" ∧ ',' ∉ master.id.toList) →
        service.idsMasters = AddNewServiceVC.getMasterIds added →
        getMasterFromTheDataBase service masters.objects
            = List.filter (fun m => (added.map (·.id)).contains m.2.id) masters.objects ∧
          (added = [] → getMasterFromTheDataBase service masters.objects = [])) ∧
      (∀ m ∈ masters.objects, ∀ s ∈ services.objects,
        m ∈ getMasterFromTheDataBase s.2 masters.objects ↔
          s ∈ getServicesMaster realm services.objects m.2.id) ∧
      ∀ id, (getServicesMaster realm services.objects id).Pairwise
          (fun a b => realm.le a.2.nameService b.2.nameService = true) ∧
        (getServicesMaster realm services.objects id).Perm
          (List.filter (fun s => decide (s.2.Lists id)) services.objects) := by
  refine ⟨?_, ?_, fun id => getServicesMaster_spec realm services.objects id⟩
  · intro added service hadded hpublished
    have heq : getMasterFromTheDataBase service masters.objects
        = List.filter (fun m => (added.map (·.id)).contains m.2.id) masters.objects := by
      apply List.filter_congr
      intro m hm
      rw [Bool.eq_iff_iff, List.contains_iff_mem, List.contains_iff_mem]
      exact lists_of_getMasterIds hpublished (fun master hmaster => (hadded master hmaster).2)
        (hids m hm)
    refine ⟨heq, ?_⟩
    rintro rfl
    rw [heq]
    exact List.filter_eq_nil_iff.mpr (fun m _ => by simp)
  · intro m hm s hs
    rw [mem_getMasterFromTheDataBase, mem_getServicesMaster, and_iff_right hm, and_iff_right hs]

/-- Two masters, the id of one being a part of the other's. -/
def mastersOneAndTwelve : Table Master :=
  (Table.empty.saveObjectRealm { id := "1" }).saveObjectRealm { id := "12" }

/-- The service of the master "12" is not one of the master "1". -/
theorem masterRelation_twelve :
    (getMasterFromTheDataBase { idsMasters := AddNewServiceVC.getMasterIds [{ id := "12" }] }
      mastersOneAndTwelve.objects).map (·.2.id) = ["12"] := by
  obtain ⟨hmasters, -, -⟩ :=
    masterRelation_both_ways plainRealm mastersOneAndTwelve Table.empty (by decide)
  rw [(hmasters [{ id := "12" }] _ (by decide) rfl).1]
  decide

end Flamingo
