import Flamingo.Lib.Trap
import Flamingo.PresentService.Submission
import Flamingo.RegistrationPage.RegistrationVC

set_option autoImplicit false

/-! # Writes to saved objects

`RegistrationVC` and `MakeAppointmentVC` save their object when a callback arrives, and go on
writing into it: with the next press, and with the callbacks of earlier presses. Whether a write
comes too late is decided by the order of the presses and the callbacks alone.
-/

namespace Flamingo

/-- One instance of each of the two screens, with the classes of their objects in Realm. -/
structure ObjectScreens where
  persons : Table Person
  person : ManagedObject Person
  /-- the numbers whose answers have not come -/
  asked : List String
  /-- the registration screen has not been deallocated -/
  presented : Bool
  entries : Table ServiceEntry
  serviceEntry : ManagedObject ServiceEntry
  /-- the documents whose `addDocument` has not been answered -/
  adding : List Document

inductive ObjectEvent
  | nextAction (nameClientReg infoTextField : String)
  | received (i : Nat) (documents : List Document)
  | receivedError (i : Nat)
  | unwound
  | makeAppointment (form : MakeAppointmentVC) (documentID : String)
  | added (i : Nat)
  | addedError (i : Nat)

namespace ObjectScreens

/-- What an event does, or why the process ends. -/
def outcome (s : ObjectScreens) : ObjectEvent → Except Trap ObjectScreens
  | .nextAction nameClientReg infoTextField => do
      let (person, asked) ← RegistrationVC.nextAction s.person nameClientReg infoTextField
      .ok { s with person, asked := s.asked ++ asked.toList }
  | .received i documents =>
      -- the handler unwraps its weak `self`
      if s.presented then do
        let answer ← RegistrationVC.received s.persons s.person documents
        .ok { s with
          persons := answer.persons, person := answer.person, asked := s.asked.eraseIdx i }
      else .error .other
  | .receivedError i => .ok { s with asked := s.asked.eraseIdx i }
  | .unwound => .ok { s with presented := false }
  | .makeAppointment form documentID => do
      let submitted ← form.submit s.serviceEntry
      match submitted with
      | none => .ok s
      | some serviceEntry => .ok { s with
          serviceEntry
          adding := s.adding ++ [⟨documentID, saveServiceEntryToFirebase serviceEntry.fields⟩] }
  | .added i => do
      let document ← unwrap s.adding[i]?
      let (entries, serviceEntry) ←
        MakeAppointmentVC.entryAdded s.entries s.serviceEntry document.documentID
      .ok { s with entries, serviceEntry, adding := s.adding.eraseIdx i }
  | .addedError i => .ok { s with adding := s.adding.eraseIdx i }

/-- A press needs its screen, an answer its request, and the documents of an answer have the number
that was asked for. -/
def occurs (s : ObjectScreens) : ObjectEvent → Bool
  | .nextAction _ _ => s.presented
  | .received i documents => s.asked[i]?.any (fun number =>
      decide (documents.Perm ((RegistrationVC.usersWithNumber number).getDocuments documents)))
  | .receivedError i => decide (i < s.asked.length)
  | .unwound => s.presented
  | .makeAppointment _ _ => true
  | .added i => decide (i < s.adding.length)
  | .addedError i => decide (i < s.adding.length)

/-- An event at which the process ends for another reason is no step here. -/
def enabled (s : ObjectScreens) (e : ObjectEvent) : Bool :=
  s.occurs e && match s.outcome e with
    | .error .other => false
    | _ => true

def step (s : ObjectScreens) (e : ObjectEvent) : Option ObjectScreens :=
  match s.outcome e with
  | .ok s' => some s'
  | .error _ => none

end ObjectScreens

/-- Both screens with new objects, and any content of Realm. -/
def objectScreens : EventMachine (Process ObjectScreens) ObjectEvent :=
  Process.machine
    (fun s => s.person.key = none ∧ s.serviceEntry.key = none ∧ s.asked = [] ∧ s.adding = [])
    ObjectScreens.enabled ObjectScreens.step

/-! ## The order of writes and saves -/

/-- Which objects the callbacks so far have saved, and whether a write has come after that. -/
structure SaveOrder where
  person : Bool := false
  entry : Bool := false
  late : Bool := false
  deriving DecidableEq, Repr

namespace SaveOrder

/-- A press whose checks pass writes; the answer to a query saves, and writes before that if there
is a user; an added document writes and saves. -/
def after (o : SaveOrder) : ObjectEvent → SaveOrder
  | .nextAction _ infoTextField =>
      if RegistrationVC.checks infoTextField then { o with late := o.late || o.person } else o
  | .received _ [] => { o with person := true }
  | .received _ (_ :: _) => { o with person := true, late := o.late || o.person }
  | .receivedError _ => o
  | .unwound => o
  | .makeAppointment form _ => if form.filled then { o with late := o.late || o.entry } else o
  | .added _ => { o with entry := true, late := o.late || o.entry }
  | .addedError _ => o

end SaveOrder

/-- The objects are in Realm as the callbacks have saved them, and no write was late; a process has
trapped on a late one. -/
def SavedInv : Process ObjectScreens → SaveOrder → Prop
  | .running s, o => s.person.key.isSome = o.person ∧ s.serviceEntry.key.isSome = o.entry ∧
      o.late = false
  | .trapped, o => o.late = true

namespace ObjectScreens

theorem next_of_ok {s s' : ObjectScreens} {e : ObjectEvent} (h : s.outcome e = .ok s') :
    Process.next step s e = .running s' := by
  apply Process.next_of_some
  rw [step, h]

theorem next_of_error {s : ObjectScreens} {e : ObjectEvent} {t : Trap} (h : s.outcome e = .error t) :
    Process.next step s e = .trapped := by
  apply Process.next_of_none
  rw [step, h]

/-- A write into the person is late exactly if the person is in Realm. -/
theorem late_or_person {s : ObjectScreens} {o : SaveOrder} (hi : SavedInv (.running s) o) :
    (o.late || o.person) = s.person.key.isSome := by
  obtain ⟨hperson, -, hlate⟩ := hi
  rw [hlate, hperson, Bool.false_or]

theorem late_or_entry {s : ObjectScreens} {o : SaveOrder} (hi : SavedInv (.running s) o) :
    (o.late || o.entry) = s.serviceEntry.key.isSome := by
  obtain ⟨-, hentry, hlate⟩ := hi
  rw [hlate, hentry, Bool.false_or]

theorem outcome_ne_other {s : ObjectScreens} {e : ObjectEvent} (h : s.enabled e = true) :
    s.outcome e ≠ .error .other := by
  intro hother
  rw [enabled, hother] at h
  exact absurd h (by simp)

/-- **A press on the registration button** is late if the checks pass and the person is saved. -/
theorem savedInv_nextAction {s : ObjectScreens} {o : SaveOrder} {nameClientReg infoTextField : String}
    (hi : SavedInv (.running s) o) :
    SavedInv (Process.next step s (.nextAction nameClientReg infoTextField))
      (o.after (.nextAction nameClientReg infoTextField)) := by
  have hwrite := late_or_person hi
  obtain ⟨hperson, hentry, hlate⟩ := hi
  have hpress := RegistrationVC.nextAction_eq s.person nameClientReg infoTextField
  cases hchecks : RegistrationVC.checks infoTextField with
  | false =>
      rw [if_pos hchecks] at hpress
      rw [next_of_ok (by rw [outcome, hpress]; rfl), SaveOrder.after, hchecks]
      exact ⟨hperson, hentry, hlate⟩
  | true =>
      rw [if_neg (by rw [hchecks]; exact nofun)] at hpress
      rw [SaveOrder.after, if_pos hchecks]
      cases hkey : s.person.key.isSome with
      | true =>
          rw [if_pos hkey] at hpress
          rw [next_of_error (by rw [outcome, hpress]; rfl)]
          exact hwrite.trans hkey
      | false =>
          rw [if_neg (ne_true_of_eq_false hkey)] at hpress
          rw [next_of_ok (by rw [outcome, hpress]; rfl)]
          exact ⟨hperson, hentry, hwrite.trans hkey⟩

/-- **An answer** is late if it has a user and the person is saved. -/
theorem savedInv_received {s : ObjectScreens} {o : SaveOrder} {i : Nat} {documents : List Document}
    (hi : SavedInv (.running s) o) (hne : s.outcome (.received i documents) ≠ .error .other) :
    SavedInv (Process.next step s (.received i documents)) (o.after (.received i documents)) := by
  have hwrite := late_or_person hi
  obtain ⟨hperson, hentry, hlate⟩ := hi
  have hpresented : s.presented = true := by
    by_contra hgone
    exact hne (if_neg hgone)
  have houtcome : s.outcome (.received i documents)
      = (RegistrationVC.received s.persons s.person documents).map (fun answer => { s with
          persons := answer.persons, person := answer.person, asked := s.asked.eraseIdx i }) := by
    rw [outcome, if_pos hpresented]
    cases RegistrationVC.received s.persons s.person documents <;> rfl
  cases documents with
  | nil =>
      -- the new user is saved without a write
      rw [RegistrationVC.received_nil] at houtcome
      rw [next_of_ok houtcome]
      exact ⟨ManagedObject.key_saveObject s.person s.persons, hentry, hlate⟩
  | cons document documents =>
      cases hkey : s.person.key with
      | none =>
          rw [RegistrationVC.received_cons_of_none hkey] at houtcome
          cases hfound : RegistrationVC.foundPerson document.data with
          | none =>
              rw [hfound] at houtcome
              exact absurd houtcome hne
          | some fields =>
              rw [hfound] at houtcome
              -- the fields of the user are written before the person is saved
              rw [next_of_ok houtcome]
              refine ⟨rfl, hentry, ?_⟩
              show (o.late || o.person) = false
              rw [hwrite, hkey, Option.isSome_none]
      | some key =>
          have hsome : s.person.key.isSome := by rw [hkey]; rfl
          rw [RegistrationVC.received_cons_of_isSome hsome] at houtcome
          cases hname : (document.data.string? "name").isSome with
          | false =>
              rw [if_neg (ne_true_of_eq_false hname)] at houtcome
              exact absurd houtcome hne
          | true =>
              rw [if_pos hname] at houtcome
              rw [next_of_error houtcome]
              exact hwrite.trans hsome

/-- **A press on the appointment button** is late if the form is filled and the entry is saved. -/
theorem savedInv_makeAppointment {s : ObjectScreens} {o : SaveOrder} {form : MakeAppointmentVC}
    {documentID : String} (hi : SavedInv (.running s) o)
    (hne : s.outcome (.makeAppointment form documentID) ≠ .error .other) :
    SavedInv (Process.next step s (.makeAppointment form documentID))
      (o.after (.makeAppointment form documentID)) := by
  have hwrite := late_or_entry hi
  obtain ⟨hperson, hentry, hlate⟩ := hi
  cases hfilled : form.filled with
  | false =>
      rw [next_of_ok (by rw [outcome, MakeAppointmentVC.submit_of_not_filled hfilled]; rfl),
        SaveOrder.after, hfilled]
      exact ⟨hperson, hentry, hlate⟩
  | true =>
      rw [SaveOrder.after, if_pos hfilled]
      cases hkey : s.serviceEntry.key.isSome with
      | true =>
          rw [next_of_error (by rw [outcome, MakeAppointmentVC.submit_of_isSome hfilled hkey]; rfl)]
          exact hwrite.trans hkey
      | false =>
          have hintime : (o.late || o.entry) = false := hwrite.trans hkey
          cases hsubmit : form.submit s.serviceEntry with
          | error t =>
              have hnone : s.serviceEntry.key = none :=
                Option.isNone_iff_eq_none.mp (Option.not_isSome _ ▸ by rw [hkey]; rfl)
              cases t with
              | assignment => exact absurd hsubmit (MakeAppointmentVC.submit_ne_assignment hnone)
              | other => exact absurd (by rw [outcome, hsubmit]; rfl) hne
          | ok submitted =>
              cases submitted with
              | none =>
                  -- the form is not sent
                  rw [next_of_ok (by rw [outcome, hsubmit]; rfl)]
                  exact ⟨hperson, hentry, hintime⟩
              | some serviceEntry =>
                  rw [next_of_ok (by rw [outcome, hsubmit]; rfl)]
                  refine ⟨hperson, ?_, hintime⟩
                  obtain ⟨hbefore, hafter⟩ := MakeAppointmentVC.key_of_submit hsubmit
                  show serviceEntry.key.isSome = o.entry
                  rw [hafter, ← hbefore]
                  exact hentry

/-- **An added document** is late if the entry is saved. -/
theorem savedInv_added {s : ObjectScreens} {o : SaveOrder} {i : Nat} (hi : SavedInv (.running s) o)
    (hne : s.outcome (.added i) ≠ .error .other) :
    SavedInv (Process.next step s (.added i)) (o.after (.added i)) := by
  have hwrite := late_or_entry hi
  obtain ⟨hperson, hentry, hlate⟩ := hi
  cases hdocument : s.adding[i]? with
  | none => exact absurd (by rw [outcome, hdocument]; rfl) hne
  | some document =>
      have hadded := MakeAppointmentVC.entryAdded_eq s.entries s.serviceEntry document.documentID
      cases hkey : s.serviceEntry.key.isSome with
      | true =>
          rw [if_pos hkey] at hadded
          rw [next_of_error (t := .assignment) (by
            simp only [outcome, hdocument, unwrap, hadded, bind, Except.bind])]
          exact hwrite.trans hkey
      | false =>
          rw [if_neg (ne_true_of_eq_false hkey)] at hadded
          rw [next_of_ok (by simp only [outcome, hdocument, unwrap, hadded, bind, Except.bind]; rfl)]
          exact ⟨hperson, rfl, hwrite.trans hkey⟩

/-- **One step** keeps the invariant. -/
theorem savedInv_step {p p' : Process ObjectScreens} {o : SaveOrder} {e : ObjectEvent}
    (hi : SavedInv p o) (h : objectScreens.step p e = some p') : SavedInv p' (o.after e) := by
  obtain ⟨s, rfl, henabled, rfl⟩ := Process.machine_step_cases h
  have hne := outcome_ne_other henabled
  cases e with
  | nextAction nameClientReg infoTextField => exact savedInv_nextAction hi
  | received i documents => exact savedInv_received hi hne
  | receivedError i => exact hi
  | unwound => exact hi
  | makeAppointment form documentID => exact savedInv_makeAppointment hi hne
  | added i => exact savedInv_added hi hne
  | addedError i => exact hi

end ObjectScreens

/-! ## The runs -/

/-- **No late write.** The process has not trapped on an assignment to a saved object exactly if no
press and no callback has written into an object after a callback had saved it. -/
theorem writesInTime_iff (s : ObjectScreens) (h0 : objectScreens.init (.running s))
    (es : List ObjectEvent) (p : Process ObjectScreens)
    (h : objectScreens.exec (.running s) es = some p) :
    p ≠ .trapped ↔ (es.foldl SaveOrder.after {}).late = false := by
  obtain ⟨t, ⟨hperson, hentry, -, -⟩, heq⟩ := h0
  obtain rfl := Process.running.inj heq
  have hinit : SavedInv (.running s) {} := by
    refine ⟨?_, ?_, rfl⟩
    · rw [hperson]
      rfl
    · rw [hentry]
      rfl
  have hend := EventMachine.exec_history SaveOrder.after SavedInv
    (fun _ _ _ _ hi hs => ObjectScreens.savedInv_step hi hs) es hinit h
  cases p with
  | running s' => exact iff_of_true nofun hend.2.2
  | trapped =>
      rw [show (es.foldl SaveOrder.after {}).late = true from hend]
      exact iff_of_false (fun hne => hne rfl) nofun

/-- Both screens have been opened. -/
def newObjectScreens : ObjectScreens where
  persons := Table.empty
  person := ⟨{}, none⟩
  asked := []
  presented := true
  entries := Table.empty
  serviceEntry := ⟨{ dttmEntry := 0 }, none⟩
  adding := []

theorem init_newObjectScreens : objectScreens.init (.running newObjectScreens) :=
  ⟨_, ⟨rfl, rfl, rfl, rfl⟩, rfl⟩

/-- A registered user. -/
def userAnna : Document :=
  ⟨"anna", savePersonToFirebase { name := "Anna", numberPhone := "+7 (900) 000-0000" }⟩

/-- One press on each button. -/
theorem writesInTime_once : ∃ p : Process ObjectScreens, p ≠ .trapped ∧
    p.running?.map (fun s => (s.persons.objects.map (·.2.name), s.entries.objects.map (·.2.id)))
      = some (["Anna"], ["appointment"]) := by
  have hrun : (objectScreens.exec (.running newObjectScreens)
      [.nextAction "Olga" "+7 (900) 000-0000", .received 0 [userAnna], .unwound,
        .makeAppointment filledForm "appointment", .added 0]).map
      (fun p => p.running?.map (fun s =>
        (s.persons.objects.map (·.2.name), s.entries.objects.map (·.2.id))))
      = some (some (["Anna"], ["appointment"])) := by decide
  obtain ⟨p, hp, hsaved⟩ := Option.map_eq_some_iff.mp hrun
  exact ⟨p, (writesInTime_iff _ init_newObjectScreens _ p hp).mpr (by decide), hsaved⟩

/-- **The second press.** Both presses are answered with the user: the first answer saves the
person, the second one writes its name. -/
theorem not_writesInTime : ¬ ∀ p, objectScreens.Reachable p → p ≠ .trapped := by
  intro hall
  have hrun : (objectScreens.exec (.running newObjectScreens)
      [.nextAction "Anna" "+7 (900) 000-0000", .nextAction "Anna" "+7 (900) 000-0000",
        .received 0 [userAnna], .received 0 [userAnna]]).map (fun p => p.running?.isNone)
      = some true := by decide
  obtain ⟨p, hp, hnone⟩ := Option.map_eq_some_iff.mp hrun
  refine hall p (EventMachine.reachable_of_exec _ init_newObjectScreens hp) ?_
  exact Process.running?_eq_none_iff.mp (Option.isNone_iff_eq_none.mp hnone)

end Flamingo
