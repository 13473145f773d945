import Flamingo.DBManager.FirebaseManager
import Flamingo.DBManager.ManagedObject

set_option autoImplicit false

/-! # The registration screen

`RegistrationVC` owns one `Person` object. A press writes the texts of the fields into it and asks
Firestore for the users with the number; the answer either registers the person as it is then, or
writes the fields of the user that was found into it. In both cases the object is saved.
-/

namespace Flamingo

namespace RegistrationVC

/-- The check of the name looks at the field of the number. -/
def checkName (infoTextField : String) : Bool := infoTextField != ""

def checkCountNumber (infoTextField : String) : Bool :=
  if infoTextField != "" then infoTextField.length == 17 else false

/-- The two guards of `nextAction`. -/
def checks (infoTextField : String) : Bool :=
  checkName infoTextField && checkCountNumber infoTextField

/-- The query of `checkDataNumberPhone`. -/
def usersWithNumber (number : String) : Query :=
  (Query.ofCollection "users").whereField (.isEqualTo "numberPhone" number)

/-- The button `nextAction`: the person, and the number that is asked for, if the checks pass. -/
def nextAction (person : ManagedObject Person) (nameClientReg infoTextField : String) :
    Except Trap (ManagedObject Person × Option String) :=
  if checks infoTextField then do
    let person ← person.assign (fun p => { p with name := nameClientReg })
    let person ← person.assign (fun p => { p with numberPhone := infoTextField })
    .ok (person, some infoTextField)
  else .ok (person, none)

/-- The screen after an answer: the objects of the class in Realm, the person, and the document
that is added to the users. -/
structure Registered where
  persons : Table Person
  person : ManagedObject Person
  added : Option DocData

/-- The completion handler of `checkDataNumberPhone`. -/
def received (persons : Table Person) (person : ManagedObject Person) (documents : List Document) :
    Except Trap Registered :=
  match documents with
  | [] =>
      -- `addDocument`, with an id that Firestore generates
      let added := savePersonToFirebase person.fields
      let (persons, person) := person.saveObject persons
      .ok ⟨persons, person, some added⟩
  | document :: _ => do
      let data := document.data
      -- each field is cast by force and assigned before the next one is looked at
      let name ← unwrap (data.string? "name")
      let person ← person.assign (fun p => { p with name })
      let numberPhone ← unwrap (data.string? "numberPhone")
      let person ← person.assign (fun p => { p with numberPhone })
      let person ← person.assign (fun p => { p with numberVerif := true })
      let admin ← unwrap (data.bool? "admin")
      let person ← person.assign (fun p => { p with admin })
      let (persons, person) := person.saveObject persons
      .ok ⟨persons, person, none⟩

/-! ## What the operations do -/

theorem mem_usersWithNumber {number : String} {users : List Document} {d : Document} :
    d ∈ (usersWithNumber number).getDocuments users ↔
      d ∈ users ∧ d.data.string? "numberPhone" = some number := by
  simp [usersWithNumber, Query.ofCollection, Query.whereField, Query.mem_getDocuments,
    FieldFilter.holds]

/-- **A press** writes the fields and asks for their number, or traps on a saved person. -/
theorem nextAction_eq (person : ManagedObject Person) (nameClientReg infoTextField : String) :
    nextAction person nameClientReg infoTextField
      = if checks infoTextField = false then .ok (person, none)
        else if person.key.isSome then .error .assignment
        else .ok ({ person with fields := { person.fields with
          name := nameClientReg, numberPhone := infoTextField } }, some infoTextField) := by
  obtain ⟨fields, key⟩ := person
  unfold nextAction
  cases checks infoTextField with
  | false => rfl
  | true => cases key <;> rfl

/-- The fields of a person that was found. -/
def foundPerson (data : DocData) : Option Person := do
  let name ← data.string? "name"
  let numberPhone ← data.string? "numberPhone"
  let admin ← data.bool? "admin"
  some { name, numberPhone, admin, numberVerif := true }

/-- A person that was found has the name and the number of its document. -/
theorem foundPerson_fields {data : DocData} {fields : Person} (h : foundPerson data = some fields) :
    data.string? "name" = some fields.name ∧
      data.string? "numberPhone" = some fields.numberPhone := by
  obtain ⟨name, hname, h⟩ := Option.bind_eq_some_iff.mp h
  obtain ⟨numberPhone, hphone, h⟩ := Option.bind_eq_some_iff.mp h
  obtain ⟨admin, -, h⟩ := Option.bind_eq_some_iff.mp h
  obtain rfl := Option.some.inj h
  exact ⟨hname, hphone⟩

/-- **An answer without a user** registers the person. -/
theorem received_nil (persons : Table Person) (person : ManagedObject Person) :
    received persons person []
      = .ok ⟨(person.saveObject persons).1, (person.saveObject persons).2,
          some (savePersonToFirebase person.fields)⟩ := rfl

/-- **An answer with a user** writes the fields of the first one into a person that is not saved
yet. -/
theorem received_cons_of_none {persons : Table Person} {person : ManagedObject Person}
    (hkey : person.key = none) (document : Document) (documents : List Document) :
    received persons person (document :: documents)
      = match foundPerson document.data with
        | none => .error .other
        | some fields => .ok ⟨persons.saveObjectRealm fields, ⟨fields, some persons.next⟩, none⟩ := by
  obtain ⟨fields, key⟩ := person
  obtain rfl : key = none := hkey
  unfold received foundPerson
  dsimp only
  cases document.data.string? "name" with
  | none => rfl
  | some name =>
      cases document.data.string? "numberPhone" with
      | none => rfl
      | some numberPhone => cases document.data.bool? "admin" <;> rfl

/-- The first assignment traps on a saved person. -/
theorem received_cons_of_isSome {persons : Table Person} {person : ManagedObject Person}
    (hkey : person.key.isSome) (document : Document) (documents : List Document) :
    received persons person (document :: documents)
      = if (document.data.string? "name").isSome then .error .assignment else .error .other := by
  unfold received
  dsimp only
  cases document.data.string? "name" with
  | none => rfl
  | some name =>
      show (person.assign (fun p => { p with name }) >>= _) = _
      rw [ManagedObject.assign_of_isSome hkey]
      rfl

/-- A document is added only on an answer without a user. -/
theorem added_of_received {persons : Table Person} {person : ManagedObject Person}
    {documents : List Document} {answer : Registered}
    (h : received persons person documents = .ok answer) :
    answer.added = if documents.isEmpty then some (savePersonToFirebase person.fields) else none := by
  cases documents with
  | nil =>
      obtain rfl := Except.ok.inj h
      rfl
  | cons document documents =>
      cases hkey : person.key with
      | none =>
          rw [received_cons_of_none hkey] at h
          split at h
          · cases h
          · obtain rfl := Except.ok.inj h
            rfl
      | some key =>
          rw [received_cons_of_isSome (by rw [hkey]; rfl)] at h
          split_ifs at h

end RegistrationVC

end Flamingo
