import Flamingo.DBManager.DataEntry
import Flamingo.DBManager.ModelDataBase

set_option autoImplicit false

/-! # The documents that the program writes

The field dictionaries of `FirebaseManager.saveDiscontToFirebase`, `saveMasterToFirebase`,
`saveServiceToFirebase` and `savePersonToFirebase`, and the field updates of `updataMaster`.
-/

namespace Flamingo

def saveDiscontToFirebase (discont : Discont) : DocData :=
  [("id", .string discont.id),
    ("name", .string discont.name),
    ("description", .string discont.descriptionDiscont),
    ("dateStart", .string discont.dateStart),
    ("dateEnd", .string discont.dateEnd),
    ("imageURL", .string discont.imageURL)]

def saveMasterToFirebase (master : Master) : DocData :=
  [("id", .string master.id),
    ("name", .string master.name),
    ("profil", .string master.profil),
    ("info", .string master.info),
    ("imageURL", .string master.imageURL)]

/-- `saveObjectOfFirebase`: a master without its `info`. -/
def saveObjectOfFirebase (master : Master) : DocData :=
  [("id", .string master.id),
    ("name", .string master.name),
    ("profil", .string master.profil),
    ("imageURL", .string master.imageURL)]

/-- The dictionary of a service with its start times, which `createDataEntry` computes. -/
def saveServiceToFirebase (service : Service) (appTime : List Int) : DocData :=
  [("id", .string service.id),
    ("name", .string service.nameService),
    ("place", .string service.placeService),
    ("time", .string service.timeService),
    ("discription", .string service.serviceDescription),
    ("nameCategory", .string service.nameCategoryService),
    ("partOfTheBody", .string service.partOfTheBody),
    ("maleman", .string service.maleMan),
    ("imageURL", .string service.imageURL),
    ("idsMasters", .string service.idsMasters),
    ("appTime", .timestamps appTime)]

def savePersonToFirebase (person : Person) : DocData :=
  [("name", .string person.name),
    ("numberPhone", .string person.numberPhone),
    ("admin", .bool person.admin),
    ("numberVerif", .bool person.numberVerif)]

/-- The four field updates of `updataMaster`, in their order. -/
def updataMaster (master : Master) (data : DocData) : DocData :=
  (((data.set "imageURL" (.string master.imageURL)).set "info" (.string master.info)).set
    "name" (.string master.name)).set "profil" (.string master.profil)

/-! ## The image field -/

theorem lookup_cons_if (name key : String) (v : Value) (l : DocData) :
    List.lookup key ((name, v) :: l) = if key = name then some v else l.lookup key := by
  by_cases h : key = name
  · simp [h]
  · have hbeq : (key == name) = false := by simpa using h
    rw [List.lookup_cons, hbeq, if_neg h]

theorem lookup_map_replace (key key' : String) (v : Value) (l : DocData) :
    List.lookup key' (l.map (fun f => if f.1 == key then (key, v) else f))
      = if key' = key then (l.lookup key).map (fun _ => v) else l.lookup key' := by
  induction l with
  | nil => simp
  | cons f l ih =>
      obtain ⟨name, w⟩ := f
      by_cases hname : name = key
      · subst hname
        simp only [List.map_cons, beq_self_eq_true, if_true, lookup_cons_if, ih]
        split_ifs <;> rfl
      · have hbeq : (name == key) = false := by simpa using hname
        simp only [List.map_cons, hbeq, Bool.false_eq_true, if_false, lookup_cons_if, ih,
          if_neg (Ne.symm hname)]
        by_cases hkey : key' = key
        · rw [if_neg (fun heq => hname (heq.symm.trans hkey)), if_pos hkey, if_pos hkey]
        · rw [if_neg hkey, if_neg hkey]

/-- A field update changes its own field and no other. -/
theorem DocData.lookup_set (data : DocData) (key key' : String) (v : Value) :
    (data.set key v).lookup key' = if key' = key then some v else data.lookup key' := by
  unfold DocData.set
  by_cases hany : data.any (fun f => f.1 == key) = true
  · obtain ⟨f, hf, hkey⟩ := List.any_eq_true.mp hany
    have hsome : (data.lookup key).isSome = true := by
      rw [Option.isSome_iff_ne_none]
      intro hnone
      have := List.lookup_eq_none_iff.mp hnone f hf
      simp only [beq_iff_eq] at hkey
      simp [hkey] at this
    obtain ⟨w, hw⟩ := Option.isSome_iff_exists.mp hsome
    rw [if_pos hany, lookup_map_replace, hw, Option.map_some]
  · rw [if_neg hany, List.lookup_append, lookup_cons_if, List.lookup_nil]
    by_cases hkey : key' = key
    · subst hkey
      have hnone : data.lookup key' = none := by
        refine List.lookup_eq_none_iff.mpr (fun f hf => ?_)
        simp only [List.any_eq_true, beq_iff_eq, not_exists, not_and] at hany
        exact bne_iff_ne.mpr (fun heq => hany f hf heq.symm)
      rw [hnone, if_pos rfl, Option.none_or]
    · rw [if_neg hkey, if_neg hkey, Option.or_none]

theorem DocData.string?_set (data : DocData) (key key' : String) (v : Value) :
    (data.set key v).string? key' = if key' = key then v.asString else data.string? key' := by
  unfold DocData.string?
  rw [DocData.lookup_set]
  split_ifs <;> rfl

@[simp] theorem updataMaster_imageURL (master : Master) (data : DocData) :
    (updataMaster master data).string? "imageURL" = some master.imageURL := by
  simp [updataMaster, DocData.string?_set, Value.asString]

end Flamingo
