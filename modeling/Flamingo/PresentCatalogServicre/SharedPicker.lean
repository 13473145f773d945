import Flamingo.DBManager.ModelDataBase
import Flamingo.DBManager.Firestore
import Flamingo.Lib.Fold
import Flamingo.Lib.Machine

set_option autoImplicit false

/-! # The picker of the service editor

Five fields of the service editor share one picker and one array of its rows. Two of them ask
Firestore for their options, and the answer goes into the array whenever it comes, whichever field is
edited by then. So the array has the options of the field for which it was filled last, and a
selection writes one of them into the field that is edited.
-/

namespace Flamingo

/-- `as? Array<String>`; an empty array has no type of its own. -/
def Value.asStrings : Value → Option (List String)
  | .strings l => some l
  | .timestamps [] => some []
  | _ => none

/-- `data[key] as? Array<String>` -/
def DocData.strings? (data : DocData) (key : String) : Option (List String) :=
  (data.lookup key).bind Value.asStrings

/-- The fields that the picker is the input view of. -/
inductive PickerField
  | timeService
  | maleMan
  | partOfTheBody
  | nameCategoryOfService
  | cosmetologiService
  deriving DecidableEq, Repr

/-- The parameters of `getDataFirebase`. -/
inductive Param
  | cosmetologis
  | partOfTheBodys
  deriving DecidableEq, Repr

namespace Param

def key : Param → String
  | cosmetologis => "cosmetologis"
  | partOfTheBodys => "partOfTheBodys"

/-- The field that asks for the parameter. -/
def field : Param → PickerField
  | cosmetologis => .cosmetologiService
  | partOfTheBodys => .partOfTheBody

end Param

/-- The categories in Realm and the documents of the collection `param_app`. -/
structure PickerSources where
  categories : List CategoryService
  paramApp : List DocData

structure PickerScreen where
  arrayPickerData : List String
  /-- the field that `isEditing` -/
  editing : Option PickerField
  text : PickerField → String
  /-- the requests that have not been answered -/
  requests : List Param
  /-- the field whose handler or answer has filled the array last -/
  filledFor : Option PickerField
  /-- what the selections have written into the fields -/
  written : List (PickerField × String)

inductive PickerEvent
  | editingDidBegin (field : PickerField)
  | editingDidEnd
  | received (i : Nat)
  | receivedError (i : Nat)
  | didSelectRow (row : Nat)

namespace PickerScreen

/-! ## The handlers of the fields -/

def dataTimePicker : List String × List String :=
  (["0", "1", "2", "3"], ["00", "05", "10", "15", "20", "25", "30", "35", "40", "45", "50", "60"])

/-- The array after the two loops of `generateTime`. -/
def generateTime (arrayPickerData : List String) : List String :=
  let hours := dataTimePicker.1
  let minutes := dataTimePicker.2
  hours.foldl (fun data hour =>
    minutes.foldl (fun data mitute => data ++ [hour ++ ":" ++ mitute]) data) arrayPickerData

def editingTimeService (s : PickerScreen) : PickerScreen :=
  let s := { s with arrayPickerData := [] }
  { s with arrayPickerData := generateTime s.arrayPickerData }

/-- `getDataFirebase` -/
def getDataFirebase (s : PickerScreen) (getParams : Param) : PickerScreen :=
  { s with requests := s.requests ++ [getParams] }

def editingCosmetologiService (s : PickerScreen) : PickerScreen :=
  let s := { s with arrayPickerData := [] }
  s.getDataFirebase .cosmetologis

def editingNameCategoryOfService (categories : List CategoryService) (s : PickerScreen) :
    PickerScreen :=
  let s := { s with arrayPickerData := [] }
  categories.foldl (fun s category =>
    { s with arrayPickerData := s.arrayPickerData ++ [category.category] }) s

def editingMaleMan (s : PickerScreen) : PickerScreen :=
  let s := { s with arrayPickerData := [] }
  let s := { s with arrayPickerData := s.arrayPickerData ++ ["Для мужчин"] }
  let s := { s with arrayPickerData := s.arrayPickerData ++ ["Для женчин"] }
  { s with arrayPickerData := s.arrayPickerData ++ ["Для всех"] }

def editingPartOfTheBody (s : PickerScreen) : PickerScreen :=
  let s := { s with arrayPickerData := [] }
  s.getDataFirebase .partOfTheBodys

/-- The handler of a field for `.editingDidBegin`. -/
def editingDidBegin (o : PickerSources) (s : PickerScreen) (field : PickerField) : PickerScreen :=
  let s := { s with editing := some field, filledFor := some field }
  match field with
  | .timeService => s.editingTimeService
  | .maleMan => s.editingMaleMan
  | .partOfTheBody => s.editingPartOfTheBody
  | .nameCategoryOfService => s.editingNameCategoryOfService o.categories
  | .cosmetologiService => s.editingCosmetologiService

/-! ## The answer and the selection -/

/-- The loop over the documents of an answer: each array replaces the one before it. A document
without the parameter traps. -/
def fillFrom (arrayPickerData : List String) (getParams : Param) :
    List DocData → Option (List String)
  | [] => some arrayPickerData
  | document :: documents => do
      let arrayParam ← document.strings? getParams.key
      fillFrom arrayParam getParams documents

/-- The completion handler of `getDataFirebase`. -/
def received (o : PickerSources) (s : PickerScreen) (i : Nat) : Option PickerScreen := do
  let getParams ← s.requests[i]?
  let arrayPickerData ← fillFrom s.arrayPickerData getParams o.paramApp
  some { s with
    arrayPickerData
    requests := s.requests.eraseIdx i
    filledFor := if o.paramApp.isEmpty then s.filledFor else some getParams.field }

/-- One `if` of `didSelectRow`; a row out of range traps. -/
def selectInto (row : Nat) (s : PickerScreen) (field : PickerField) : Option PickerScreen :=
  if s.editing = some field then do
    let text ← s.arrayPickerData[row]?
    some { s with
      text := Function.update s.text field text
      written := s.written ++ [(field, text)] }
  else some s

def didSelectRow (s : PickerScreen) (row : Nat) : Option PickerScreen := do
  let s ← s.selectInto row .timeService
  let s ← s.selectInto row .maleMan
  let s ← s.selectInto row .partOfTheBody
  let s ← s.selectInto row .nameCategoryOfService
  s.selectInto row .cosmetologiService

def step (o : PickerSources) (s : PickerScreen) : PickerEvent → Option PickerScreen
  | .editingDidBegin field => some (s.editingDidBegin o field)
  | .editingDidEnd => some { s with editing := none }
  | .received i => s.received o i
  | .receivedError i => some { s with requests := s.requests.eraseIdx i }
  | .didSelectRow row => s.didSelectRow row

end PickerScreen

/-- The editor from the moment it is opened, with any texts in its fields. -/
def sharedPicker (o : PickerSources) : EventMachine PickerScreen PickerEvent where
  init s := s.arrayPickerData = [] ∧ s.editing = none ∧ s.requests = [] ∧ s.filledFor = none ∧
    s.written = []
  step := PickerScreen.step o

/-! ## The property and its condition -/

/-- The option list of a field. -/
def PickerSources.options (o : PickerSources) : PickerField → List String
  | .timeService => PickerScreen.generateTime []
  | .maleMan => ["Для мужчин", "Для женчин", "Для всех"]
  | .partOfTheBody =>
      o.paramApp.flatMap (fun document => (document.strings? "partOfTheBodys").getD [])
  | .nameCategoryOfService => o.categories.map CategoryService.category
  | .cosmetologiService =>
      o.paramApp.flatMap (fun document => (document.strings? "cosmetologis").getD [])

namespace PickerScreen

/-- Every string that was written into a field is one of its own options. -/
def OwnOptions (o : PickerSources) (s : PickerScreen) : Prop :=
  ∀ w ∈ s.written, w.2 ∈ o.options w.1

/-- A row is selected only while the field is edited for which the array was filled last. -/
def FilledForEditing (s : PickerScreen) : PickerEvent → Prop
  | .didSelectRow _ => ∀ field, s.editing = some field → s.filledFor = some field
  | _ => True

instance (s : PickerScreen) : (e : PickerEvent) → Decidable (s.FilledForEditing e)
  | .didSelectRow _ => decidable_of_iff (∀ field ∈ s.editing, s.filledFor = some field) Iff.rfl
  | .editingDidBegin _ | .editingDidEnd | .received _ | .receivedError _ => instDecidableTrue

/-! ## What the array holds -/

/-- Only options of the field for which it was filled last. -/
def HoldsOptions (o : PickerSources) (s : PickerScreen) : Prop :=
  ∀ text ∈ s.arrayPickerData, ∃ field, s.filledFor = some field ∧ text ∈ o.options field

theorem options_field (o : PickerSources) (p : Param) :
    o.options p.field
      = o.paramApp.flatMap (fun document => (document.strings? p.key).getD []) := by
  cases p with
  | cosmetologis => rfl
  | partOfTheBodys => rfl

/-- The array that the last document has stays. -/
theorem fillFrom_cases {arrayPickerData data : List String} {p : Param} {documents : List DocData}
    (h : fillFrom arrayPickerData p documents = some data) :
    (documents = [] ∧ data = arrayPickerData) ∨
      ∃ document ∈ documents, document.strings? p.key = some data := by
  induction documents generalizing arrayPickerData with
  | nil => exact Or.inl ⟨rfl, (Option.some.inj h).symm⟩
  | cons document documents ih =>
      obtain ⟨arrayParam, hparam, h⟩ := Option.bind_eq_some_iff.mp h
      right
      rcases ih h with ⟨-, rfl⟩ | ⟨document', hmem, hdata⟩
      · exact ⟨document, List.mem_cons_self, hparam⟩
      · exact ⟨document', List.mem_cons_of_mem _ hmem, hdata⟩

theorem editingNameCategoryOfService_eq (categories : List CategoryService) (s : PickerScreen) :
    s.editingNameCategoryOfService categories
      = { s with arrayPickerData := categories.map CategoryService.category } := by
  unfold editingNameCategoryOfService
  refine (PushFold.foldl_push (fun data => { s with arrayPickerData := data })
    CategoryService.category ?_ categories []).trans ?_
  · intro acc category
    rfl
  · rw [List.nil_append]

/-- **A field that begins to be edited** has its own options in the array, or none yet. -/
theorem holdsOptions_editingDidBegin (o : PickerSources) (s : PickerScreen) (field : PickerField) :
    (s.editingDidBegin o field).HoldsOptions o := by
  intro text htext
  refine ⟨field, ?_, ?_⟩
  · cases field with
    | nameCategoryOfService => rw [editingDidBegin, editingNameCategoryOfService_eq]
    | timeService | maleMan | partOfTheBody | cosmetologiService => rfl
  · cases field with
    | timeService => exact htext
    | maleMan => exact htext
    | nameCategoryOfService =>
        rw [editingDidBegin, editingNameCategoryOfService_eq] at htext
        exact htext
    | partOfTheBody | cosmetologiService => cases htext

/-- **An answer** leaves the options of the field that asked. -/
theorem holdsOptions_received {o : PickerSources} {s s' : PickerScreen} {i : Nat}
    (hi : s.HoldsOptions o) (h : s.received o i = some s') : s'.HoldsOptions o := by
  obtain ⟨p, -, h⟩ := Option.bind_eq_some_iff.mp h
  obtain ⟨data, hdata, h⟩ := Option.bind_eq_some_iff.mp h
  obtain rfl := Option.some.inj h
  intro text htext
  show ∃ field, (if o.paramApp.isEmpty then s.filledFor else some p.field) = some field ∧ _
  rcases fillFrom_cases hdata with ⟨hempty, rfl⟩ | ⟨document, hmem, hstrings⟩
  · have hcond : o.paramApp.isEmpty = true := by rw [hempty, List.isEmpty_nil]
    rw [if_pos hcond]
    exact hi text htext
  · have hne : ¬ o.paramApp.isEmpty = true := by
      rw [List.isEmpty_iff]
      exact List.ne_nil_of_mem hmem
    rw [if_neg hne]
    refine ⟨p.field, rfl, ?_⟩
    rw [options_field]
    exact List.mem_flatMap.mpr ⟨document, hmem, by rw [hstrings]; exact htext⟩

/-! ## What a selection writes -/

/-- The `if` of the field that is edited writes the row into it. -/
theorem selectInto_self {s : PickerScreen} {field : PickerField} (h : s.editing = some field)
    (row : Nat) :
    s.selectInto row field = (s.arrayPickerData[row]?).map (fun text => { s with
      text := Function.update s.text field text
      written := s.written ++ [(field, text)] }) := by
  rw [selectInto, if_pos h]
  cases s.arrayPickerData[row]? <;> rfl

/-- The others do nothing. -/
theorem foldlM_selectInto {s : PickerScreen} {fields : List PickerField}
    (h : ∀ field ∈ fields, s.editing ≠ some field) (row : Nat) :
    fields.foldlM (fun s => s.selectInto row) s = some s :=
  OptionFold.foldlM_fixed (fun field hfield => if_neg (h field hfield))

theorem didSelectRow_eq_foldlM (s : PickerScreen) (row : Nat) :
    s.didSelectRow row
      = [PickerField.timeService, .maleMan, .partOfTheBody, .nameCategoryOfService,
          .cosmetologiService].foldlM (fun s => s.selectInto row) s := by
  simp only [List.foldlM_cons, List.foldlM_nil, bind_pure]
  rfl

theorem didSelectRow_of_none {s : PickerScreen} (h : s.editing = none) (row : Nat) :
    s.didSelectRow row = some s := by
  rw [didSelectRow_eq_foldlM]
  refine foldlM_selectInto ?_ row
  intro field _
  rw [h]
  exact Option.some_ne_none field ∘ Eq.symm

/-- The field that is edited is the only one that is written. -/
theorem didSelectRow_of_some {s : PickerScreen} {field : PickerField} (h : s.editing = some field)
    (row : Nat) :
    s.didSelectRow row = (s.arrayPickerData[row]?).map (fun text => { s with
      text := Function.update s.text field text
      written := s.written ++ [(field, text)] }) := by
  rw [didSelectRow_eq_foldlM]
  have hmem : field ∈ [PickerField.timeService, .maleMan, .partOfTheBody, .nameCategoryOfService,
      .cosmetologiService] := by cases field <;> decide
  obtain ⟨before, after, hfields⟩ := List.append_of_mem hmem
  have hnodup : (before ++ field :: after).Nodup := by
    rw [← hfields]
    decide
  obtain ⟨-, hafter, hbefore⟩ := List.nodup_append.mp hnodup
  -- the fields before and after it are not the one that is edited
  have hne : ∀ other ∈ before, s.editing ≠ some other := by
    intro other hother heq
    obtain rfl := Option.some.inj (h.symm.trans heq)
    exact hbefore _ hother _ List.mem_cons_self rfl
  have hne' : ∀ other ∈ after, s.editing ≠ some other := by
    intro other hother heq
    obtain rfl := Option.some.inj (h.symm.trans heq)
    exact (List.nodup_cons.mp hafter).1 hother
  rw [hfields, List.foldlM_append, foldlM_selectInto hne, Option.bind_eq_bind, Option.bind_some,
    List.foldlM_cons, selectInto_self h]
  cases s.arrayPickerData[row]? with
  | none => rfl
  | some text =>
      rw [Option.map_some, Option.bind_eq_bind, Option.bind_some]
      refine foldlM_selectInto ?_ row
      exact hne'

theorem didSelectRow_cases {s s' : PickerScreen} {row : Nat} (h : s.didSelectRow row = some s') :
    s' = s ∨ ∃ field text, s.editing = some field ∧ s.arrayPickerData[row]? = some text ∧
      s' = { s with
        text := Function.update s.text field text
        written := s.written ++ [(field, text)] } := by
  cases hediting : s.editing with
  | none =>
      rw [didSelectRow_of_none hediting] at h
      exact Or.inl (Option.some.inj h).symm
  | some field =>
      rw [didSelectRow_of_some hediting] at h
      obtain ⟨text, htext, rfl⟩ := Option.map_eq_some_iff.mp h
      exact Or.inr ⟨field, text, rfl, htext, by rw [← hediting]⟩

/-! ## The runs -/

theorem holdsOptions_step {o : PickerSources} {s s' : PickerScreen} {e : PickerEvent}
    (hi : s.HoldsOptions o) (h : s.step o e = some s') : s'.HoldsOptions o := by
  cases e with
  | editingDidBegin field =>
      obtain rfl := Option.some.inj h
      exact holdsOptions_editingDidBegin o s field
  | editingDidEnd | receivedError i =>
      obtain rfl := Option.some.inj h
      exact hi
  | received i => exact holdsOptions_received hi h
  | didSelectRow row =>
      rcases didSelectRow_cases h with rfl | ⟨field, text, -, -, rfl⟩
      · exact hi
      · exact hi

theorem written_editingDidBegin (o : PickerSources) (s : PickerScreen) (field : PickerField) :
    (s.editingDidBegin o field).written = s.written := by
  cases field with
  | timeService => rw [editingDidBegin, editingTimeService]
  | maleMan => rw [editingDidBegin, editingMaleMan]
  | partOfTheBody => rw [editingDidBegin, editingPartOfTheBody, getDataFirebase]
  | nameCategoryOfService => rw [editingDidBegin, editingNameCategoryOfService_eq]
  | cosmetologiService => rw [editingDidBegin, editingCosmetologiService, getDataFirebase]

/-- The focus and the answers write nothing into the fields. -/
theorem written_step {o : PickerSources} {s s' : PickerScreen} {e : PickerEvent}
    (h : s.step o e = some s') :
    s'.written = s.written ∨ ∃ row field text, e = .didSelectRow row ∧ s.editing = some field ∧
      s.arrayPickerData[row]? = some text ∧ s'.written = s.written ++ [(field, text)] := by
  cases e with
  | editingDidBegin field =>
      obtain rfl := Option.some.inj h
      exact Or.inl (written_editingDidBegin o s field)
  | editingDidEnd | receivedError i =>
      obtain rfl := Option.some.inj h
      exact Or.inl rfl
  | received i =>
      obtain ⟨p, -, h⟩ := Option.bind_eq_some_iff.mp h
      obtain ⟨data, -, h⟩ := Option.bind_eq_some_iff.mp h
      obtain rfl := Option.some.inj h
      exact Or.inl rfl
  | didSelectRow row =>
      rcases didSelectRow_cases h with rfl | ⟨field, text, hediting, htext, rfl⟩
      · exact Or.inl rfl
      · exact Or.inr ⟨row, field, text, rfl, hediting, htext, rfl⟩

/-- **Each field receives only its own options** in every run whose selections are made while the
array was filled last for the field that is edited. -/
theorem ownOptions_of_filledForEditing (o : PickerSources) {s : PickerScreen}
    (h : (sharedPicker o).Reach FilledForEditing s) : s.OwnOptions o := by
  have hinv : s.HoldsOptions o ∧ s.OwnOptions o := by
    refine h.invariant (fun s => s.HoldsOptions o ∧ s.OwnOptions o) ?_ ?_
    · rintro s ⟨hdata, -, -, -, hwritten⟩
      rw [HoldsOptions, OwnOptions, hdata, hwritten]
      exact ⟨List.forall_mem_nil _, List.forall_mem_nil _⟩
    · rintro s e s' ⟨hholds, hown⟩ hcond hstep
      refine ⟨holdsOptions_step hholds hstep, ?_⟩
      rcases written_step hstep with heq | ⟨row, field, text, rfl, hediting, htext, heq⟩
      · rw [OwnOptions, heq]
        exact hown
      · rw [OwnOptions, heq]
        intro w hw
        rcases List.mem_append.mp hw with hw | hw
        · exact hown w hw
        · -- the array was filled for the field into which the row is written
          obtain rfl := List.mem_singleton.mp hw
          obtain ⟨filled, hfilled, hoption⟩ := hholds text (List.mem_of_getElem? htext)
          obtain rfl := Option.some.inj (hfilled.symm.trans (hcond field hediting))
          exact hoption
  exact hinv.2

/-- One document with an option for each of the two fields. -/
def oneParam : PickerSources where
  categories := [{ category := "Маникюр" }]
  paramApp := [[("cosmetologis", .strings ["Уход"]), ("partOfTheBodys", .strings ["Лицо"])]]

def blankPicker : PickerScreen := ⟨[], none, fun _ => "", [], none, []⟩

theorem init_blankPicker : (sharedPicker oneParam).init blankPicker := ⟨rfl, rfl, rfl, rfl, rfl⟩

/-- The answer is waited for, and a time is selected after that. -/
theorem ownOptions_waiting : ∃ s, (sharedPicker oneParam).Reach FilledForEditing s ∧
    s.written = [(.cosmetologiService, "Уход"), (.timeService, "0:05")] ∧ s.OwnOptions oneParam := by
  have hrun : ((sharedPicker oneParam).execWhere FilledForEditing blankPicker
      [.editingDidBegin .cosmetologiService, .received 0, .didSelectRow 0,
        .editingDidBegin .timeService, .didSelectRow 1]).map PickerScreen.written
      = some [(.cosmetologiService, "Уход"), (.timeService, "0:05")] := by decide
  obtain ⟨s, hs, hwritten⟩ := Option.map_eq_some_iff.mp hrun
  have hreach := EventMachine.reach_of_execWhere _ init_blankPicker hs
  exact ⟨s, hreach, hwritten, ownOptions_of_filledForEditing _ hreach⟩

/-- **An option of another field.** The answer comes while the time is edited. -/
theorem not_ownOptions :
    ¬ ∀ s, (sharedPicker oneParam).Reachable s → s.OwnOptions oneParam := by
  intro hall
  have hrun : ((sharedPicker oneParam).exec blankPicker
      [.editingDidBegin .cosmetologiService, .editingDidBegin .timeService, .received 0,
        .didSelectRow 0]).map PickerScreen.written = some [(.timeService, "Уход")] := by decide
  obtain ⟨s, hs, hwritten⟩ := Option.map_eq_some_iff.mp hrun
  have hown := hall s (EventMachine.reachable_of_exec _ init_blankPicker hs)
  rw [OwnOptions, hwritten] at hown
  exact absurd (hown _ (List.mem_singleton_self _)) (by decide)

end PickerScreen

end Flamingo
