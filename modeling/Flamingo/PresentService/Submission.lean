import Flamingo.DBManager.ManagedObject
import Flamingo.PresentService.MakeAppointmentVC

set_option autoImplicit false

/-! # The entry of the appointment screen as an object

`MakeAppointmentVC` owns one `ServiceEntry` object. A press of the button writes the fields of the
form into it and adds a document with them; when the document has been added, its id is written
into the object and the object is saved.
-/

namespace Flamingo

namespace MakeAppointmentVC

/-- The guards of `makeAppointment`. -/
def filled (form : MakeAppointmentVC) : Bool :=
  form.checkNameClient && form.checkPhoneClient && form.checkDataEntry

/-- The button: the object after `collectServiceEntry`, whose first assignment comes before the
master is looked up, if the fields are filled. -/
def submit (form : MakeAppointmentVC) (serviceEntry : ManagedObject ServiceEntry) :
    Except Trap (Option (ManagedObject ServiceEntry)) :=
  if form.filled then do
    let serviceEntry ← serviceEntry.assign (fun entry =>
      { entry with serviceName := form.service.nameService })
    let vc ← unwrap (collectServiceEntry { form with serviceEntry := serviceEntry.fields })
    .ok (some { serviceEntry with fields := vc.serviceEntry })
  else .ok none

/-- The completion handler of `saveServiceEntryToFirebase` for a document that has been added. -/
def entryAdded (entries : Table ServiceEntry) (serviceEntry : ManagedObject ServiceEntry)
    (documentID : String) : Except Trap (Table ServiceEntry × ManagedObject ServiceEntry) := do
  let serviceEntry ← serviceEntry.assign (fun entry => { entry with id := documentID })
  .ok (serviceEntry.saveObject entries)

/-! ## What the operations do -/

theorem submit_of_not_filled {form : MakeAppointmentVC} (h : form.filled = false)
    (serviceEntry : ManagedObject ServiceEntry) : form.submit serviceEntry = .ok none := by
  unfold submit
  rw [h]
  rfl

/-- A filled form is not written into an object that is saved. -/
theorem submit_of_isSome {form : MakeAppointmentVC} {serviceEntry : ManagedObject ServiceEntry}
    (h : form.filled = true) (hkey : serviceEntry.key.isSome) :
    form.submit serviceEntry = .error .assignment := by
  unfold submit
  rw [if_pos h, ManagedObject.assign_of_isSome hkey]
  rfl

/-- **A press** with an object that is not saved sends what the screen sends that keeps its entry by
value. -/
theorem submit_of_none (form : MakeAppointmentVC) {serviceEntry : ManagedObject ServiceEntry}
    (hkey : serviceEntry.key = none) :
    form.submit serviceEntry
      = match makeAppointment { form with serviceEntry := serviceEntry.fields } with
        | none => .error .other
        | some (_, entry) => .ok (entry.map (fun fields => ⟨fields, none⟩)) := by
  obtain ⟨fields, key⟩ := serviceEntry
  obtain rfl : key = none := hkey
  have hfilled : (checkNameClient { form with serviceEntry := fields } &&
      checkPhoneClient { form with serviceEntry := fields } &&
      checkDataEntry { form with serviceEntry := fields }) = form.filled := rfl
  unfold submit makeAppointment
  rw [hfilled]
  cases form.filled with
  | false => rfl
  | true =>
      -- what is assigned does not change which row is visible
      have hrow : ∀ entry, getIdMasterEntry { form with serviceEntry := entry }
          = form.getIdMasterEntry := fun _ => rfl
      rw [if_pos rfl, if_pos rfl, ManagedObject.assign_of_none rfl]
      simp only [bind, Except.bind, collectServiceEntry, hrow]
      cases form.arrayMaster[form.getIdMasterEntry]? <;> rfl

/-- **A press traps** when a filled form is written into an object that is saved, or the row of the
master is out of range. -/
theorem submit_eq_error_iff (form : MakeAppointmentVC) (o : ManagedObject ServiceEntry) :
    (∃ t, form.submit o = .error t) ↔ form.filled = true ∧
      (o.key.isSome ∨ form.arrayMaster[form.getIdMasterEntry]? = none) := by
  cases hfilled : form.filled with
  | false =>
      rw [submit_of_not_filled hfilled]
      exact iff_of_false (by rintro ⟨t, ht⟩; cases ht) (fun h => Bool.false_ne_true h.1)
  | true =>
      rw [and_iff_right rfl]
      cases hkey : o.key with
      | some key =>
          have hsome : o.key.isSome := by rw [hkey]; rfl
          exact iff_of_true ⟨_, submit_of_isSome hfilled hsome⟩ (Or.inl rfl)
      | none =>
          have hchecks : (checkNameClient { form with serviceEntry := o.fields } &&
              checkPhoneClient { form with serviceEntry := o.fields } &&
              checkDataEntry { form with serviceEntry := o.fields }) = true := hfilled
          rw [submit_of_none form hkey, makeAppointment, if_pos hchecks]
          have hrow : getIdMasterEntry { form with serviceEntry := o.fields }
              = form.getIdMasterEntry := rfl
          simp only [collectServiceEntry, hrow]
          cases form.arrayMaster[form.getIdMasterEntry]? with
          | none => exact iff_of_true ⟨_, rfl⟩ (Or.inr rfl)
          | some master => exact iff_of_false (by rintro ⟨t, ht⟩; cases ht) (by rintro (h | h) <;> cases h)

theorem submit_ne_assignment {form : MakeAppointmentVC} {o : ManagedObject ServiceEntry}
    (hkey : o.key = none) : form.submit o ≠ .error .assignment := by
  rw [submit_of_none form hkey]
  split
  · exact nofun
  · exact nofun

/-- What a press writes is not saved by it. -/
theorem key_of_submit {form : MakeAppointmentVC} {o o' : ManagedObject ServiceEntry}
    (h : form.submit o = .ok (some o')) : o.key = none ∧ o'.key = none := by
  cases hkey : o.key with
  | none =>
      rw [submit_of_none form hkey] at h
      split at h
      · cases h
      · rename_i entry _
        cases entry with
        | none => cases h
        | some fields =>
            obtain rfl := Option.some.inj (Except.ok.inj h)
            exact ⟨rfl, rfl⟩
  | some key =>
      have hsome : o.key.isSome := by rw [hkey]; rfl
      cases hfilled : form.filled with
      | false =>
          rw [submit_of_not_filled hfilled] at h
          cases h
      | true =>
          rw [submit_of_isSome hfilled hsome] at h
          cases h

/-- **The document's id** is written and the object saved, or the assignment traps. -/
theorem entryAdded_eq (entries : Table ServiceEntry) (serviceEntry : ManagedObject ServiceEntry)
    (documentID : String) :
    entryAdded entries serviceEntry documentID
      = if serviceEntry.key.isSome then .error .assignment
        else .ok (entries.saveObjectRealm { serviceEntry.fields with id := documentID },
          ⟨{ serviceEntry.fields with id := documentID }, some entries.next⟩) := by
  obtain ⟨fields, key⟩ := serviceEntry
  cases key <;> rfl

end MakeAppointmentVC

/-- A form with the fields filled, for a service without masters. -/
def filledForm : MakeAppointmentVC :=
  { MakeAppointmentVC.viewDidLoad 0 {} [] "Client" "+7 (900) 000-0000" with dataReceipt := some 0 }

end Flamingo
