import Flamingo.RegistrationPage.PhoneField

set_option autoImplicit false

/-! # Complete accounts

One registration screen from its first edit on. The number cannot be incomplete: only a full mask
is as long as the check of the count asks for. Nothing checks the name: `checkName` looks at the
field of the number, so that an account has a name only if one was entered, or if the user was found.
-/

namespace Flamingo

open Text (DecimalDigits NSRange replacingCharacters)

/-- What was entered when a press of `nextAction` passed the checks. -/
structure Press where
  nameClientReg : String
  digits : List Char
  deriving DecidableEq, Repr

structure RegistrationForm where
  nameClientReg : String
  infoTextField : String
  persons : Table Person
  person : ManagedObject Person
  /-- the numbers whose answers have not come -/
  asked : List String
  /-- the digits of the text that the last edit of the number has made -/
  entered : List Char
  /-- the presses that passed the checks, the last one first -/
  presses : List Press
  /-- the persons that were saved, and the documents that were sent -/
  saved : List Person
  sent : List DocData

inductive RegistrationFormEvent
  | editName (text : String)
  | editNumber (range : NSRange) (string : String)
  | nextAction
  | received (i : Nat) (documents : List Document)
  | receivedError (i : Nat)

namespace RegistrationForm

/-- A step; the process ends where a handler traps. -/
def step (u : DecimalDigits) (s : RegistrationForm) : RegistrationFormEvent → Option RegistrationForm
  | .editName text => some { s with nameClientReg := text }
  | .editNumber range string => do
      let text ← RegistrationVC.shouldChangeCharactersIn u s.infoTextField range string
      let newString ← replacingCharacters s.infoTextField range string
      some { s with infoTextField := text, entered := u.digits newString }
  | .nextAction =>
      match RegistrationVC.nextAction s.person s.nameClientReg s.infoTextField with
      | .ok (person, asked) => some { s with
          person
          asked := s.asked ++ asked.toList
          presses := asked.toList.map (fun _ => ⟨s.nameClientReg, s.entered⟩) ++ s.presses }
      | .error _ => none
  | .received i documents => do
      let number ← s.asked[i]?
      -- the documents of an answer have the number that was asked for
      if documents.Perm ((RegistrationVC.usersWithNumber number).getDocuments documents) then
        match RegistrationVC.received s.persons s.person documents with
        | .ok answer => some { s with
            persons := answer.persons
            person := answer.person
            asked := s.asked.eraseIdx i
            saved := answer.person.fields :: s.saved
            sent := answer.added.toList ++ s.sent }
        | .error _ => none
      else none
  | .receivedError i => some { s with asked := s.asked.eraseIdx i }

end RegistrationForm

/-- A new screen, after `viewDidLoad`. -/
def registrationForm (u : DecimalDigits) : EventMachine RegistrationForm RegistrationFormEvent where
  init s := s.infoTextField = "" ∧ s.person.key = none ∧ s.asked = [] ∧ s.entered = [] ∧
    s.presses = [] ∧ s.saved = [] ∧ s.sent = []
  step := RegistrationForm.step u

/-! ## The property and its condition -/

/-- The mask filled with the first eleven of the digits that were entered at a press. -/
def FullNumber (presses : List Press) (number : String) : Prop :=
  ∃ press ∈ presses, 11 ≤ press.digits.length ∧ number = PhoneField.filled (press.digits.take 11)

theorem FullNumber.cons {presses : List Press} {number : String} (h : FullNumber presses number)
    (press : Press) : FullNumber (press :: presses) number := by
  obtain ⟨press', hpress, hfull⟩ := h
  exact ⟨press', List.mem_cons_of_mem _ hpress, hfull⟩

def CompleteAccount (presses : List Press) (person : Person) : Prop :=
  person.name ≠ "" ∧ FullNumber presses person.numberPhone

namespace RegistrationForm

/-- Only complete accounts are stored and sent. -/
def OnlyComplete (s : RegistrationForm) : Prop :=
  (∀ person ∈ s.saved, CompleteAccount s.presses person) ∧
    ∀ data ∈ s.sent, ∃ person, CompleteAccount s.presses person ∧ data = savePersonToFirebase person

/-- When an answer comes: if it is the first one and there is no user, then the field of the name
was not empty at the last press; if there is a user, then the user has a name. -/
def NameEntered (s : RegistrationForm) : RegistrationFormEvent → Prop
  | .received _ [] => s.person.key = none → ∀ press ∈ s.presses.head?, press.nameClientReg ≠ ""
  | .received _ (document :: _) => document.data.string? "name" ≠ some ""
  | _ => True

/-! ## The steps -/

theorem step_editNumber {u : DecimalDigits} {s s' : RegistrationForm} {range : NSRange}
    {string : String} (h : s.step u (.editNumber range string) = some s') :
    ∃ newString, s' = { s with
      infoTextField := PhoneField.formattedNumber u newString, entered := u.digits newString } := by
  obtain ⟨text, htext, h⟩ := Option.bind_eq_some_iff.mp h
  obtain ⟨newString, hnew, h⟩ := Option.bind_eq_some_iff.mp h
  obtain ⟨newString', hnew', rfl⟩ := Option.map_eq_some_iff.mp htext
  obtain rfl := Option.some.inj (hnew'.symm.trans hnew)
  exact ⟨newString', (Option.some.inj h).symm⟩

/-- **A press** that the checks let through writes both fields into a person that is not saved. -/
theorem step_nextAction {u : DecimalDigits} {s s' : RegistrationForm}
    (h : s.step u .nextAction = some s') :
    s' = s ∨
    (RegistrationVC.checks s.infoTextField = true ∧ s.person.key = none ∧
      s' = { s with
        person := { s.person with fields := { s.person.fields with
          name := s.nameClientReg, numberPhone := s.infoTextField } }
        asked := s.asked ++ [s.infoTextField]
        presses := ⟨s.nameClientReg, s.entered⟩ :: s.presses }) := by
  simp only [step, RegistrationVC.nextAction_eq] at h
  by_cases hchecks : RegistrationVC.checks s.infoTextField = false
  · rw [if_pos hchecks] at h
    left
    rw [← Option.some.inj h]
    simp
  · rw [if_neg hchecks] at h
    right
    by_cases hkey : s.person.key.isSome
    · rw [if_pos hkey] at h
      cases h
    · rw [if_neg hkey] at h
      exact ⟨by simpa using hchecks, by simpa using hkey, (Option.some.inj h).symm⟩

/-- **An answer** saves the person, as it is or with what a user with the number has. -/
theorem step_received {u : DecimalDigits} {s s' : RegistrationForm} {i : Nat}
    {documents : List Document} (h : s.step u (.received i documents) = some s') :
    ∃ number, s.asked[i]? = some number ∧
      ((documents = [] ∧ s' = { s with
          persons := (s.person.saveObject s.persons).1
          person := (s.person.saveObject s.persons).2
          asked := s.asked.eraseIdx i
          saved := s.person.fields :: s.saved
          sent := savePersonToFirebase s.person.fields :: s.sent }) ∨
        ∃ document rest fields, documents = document :: rest ∧
          document.data.string? "name" = some fields.name ∧ fields.numberPhone = number ∧
          s' = { s with
            persons := s.persons.saveObjectRealm fields
            person := ⟨fields, some s.persons.next⟩
            asked := s.asked.eraseIdx i
            saved := fields :: s.saved }) := by
  obtain ⟨number, hnumber, h⟩ := Option.bind_eq_some_iff.mp h
  refine ⟨number, hnumber, ?_⟩
  split_ifs at h with hdocuments
  cases documents with
  | nil =>
      left
      rw [RegistrationVC.received_nil] at h
      refine ⟨rfl, ?_⟩
      rw [← Option.some.inj h]
      rw [ManagedObject.fields_saveObject]
      rfl
  | cons document rest =>
      right
      cases hkey : s.person.key with
      | none =>
          rw [RegistrationVC.received_cons_of_none hkey] at h
          cases hfound : RegistrationVC.foundPerson document.data with
          | none =>
              rw [hfound] at h
              cases h
          | some fields =>
              rw [hfound] at h
              have hmem : document ∈
                  (RegistrationVC.usersWithNumber number).getDocuments (document :: rest) :=
                hdocuments.subset List.mem_cons_self
              have hasked := (RegistrationVC.mem_usersWithNumber.mp hmem).2
              obtain ⟨hname, hphone⟩ := RegistrationVC.foundPerson_fields hfound
              exact ⟨document, rest, fields, rfl, hname,
                Option.some.inj (hphone.symm.trans hasked), (Option.some.inj h).symm⟩
      | some key =>
          rw [RegistrationVC.received_cons_of_isSome (by rw [hkey]; rfl)] at h
          split_ifs at h

/-! ## What the steps keep -/

/-- The number is always a formatted one, what is asked for is full, and so is the number of the
person from the first press that the checks let through. -/
structure FormInv (s : RegistrationForm) : Prop where
  text : s.infoTextField = PhoneField.filled s.entered
  asked : ∀ number ∈ s.asked, FullNumber s.presses number
  number : s.presses ≠ [] → FullNumber s.presses s.person.fields.numberPhone
  /-- until it is saved, the person has the name that was entered at the last press -/
  name : s.person.key = none → ∀ press ∈ s.presses.head?, s.person.fields.name = press.nameClientReg
  person : s.person.key.isSome → s.person.fields ∈ s.saved
  saved : ∀ person ∈ s.saved, FullNumber s.presses person.numberPhone
  sent : ∀ data ∈ s.sent, ∃ person ∈ s.saved, data = savePersonToFirebase person

theorem formInv_init {u : DecimalDigits} {s : RegistrationForm} (h : (registrationForm u).init s) :
    FormInv s := by
  obtain ⟨htext, hkey, hasked, hentered, hpresses, hsaved, hsent⟩ := h
  constructor
  · rw [htext, hentered]
    rfl
  · rw [hasked]
    exact List.forall_mem_nil _
  · exact fun h => absurd hpresses h
  · intro _ press hpress
    rw [hpresses] at hpress
    cases hpress
  · intro h
    rw [hkey] at h
    cases h
  · rw [hsaved]
    exact List.forall_mem_nil _
  · rw [hsent]
    exact List.forall_mem_nil _

/-- **The check of the count** lets only full masks through. -/
theorem fullNumber_of_checks {s : RegistrationForm} (hi : FormInv s)
    (hchecks : RegistrationVC.checks s.infoTextField = true) :
    FullNumber (⟨s.nameClientReg, s.entered⟩ :: s.presses) s.infoTextField := by
  have hcount : s.infoTextField.length = 17 := (RegistrationVC.checks_iff_length _).mp hchecks
  rw [hi.text] at hcount
  refine ⟨_, List.mem_cons_self, (PhoneField.length_filled_eq_iff _).mp hcount, ?_⟩
  rw [PhoneField.filled_take]
  exact hi.text

/-- Of a request that is answered: some press has passed the checks, so the person has a full
number. -/
theorem presses_ne_nil {s : RegistrationForm} (hi : FormInv s) {i : Nat} {number : String}
    (h : s.asked[i]? = some number) : s.presses ≠ [] := by
  obtain ⟨press, hpress, -⟩ := hi.asked number (List.mem_of_getElem? h)
  exact List.ne_nil_of_mem hpress

/-- A document that was sent stays that of a saved person, whoever is saved after it. -/
theorem FormInv.sent_cons {s : RegistrationForm} (hi : FormInv s) (fields : Person) :
    ∀ data ∈ s.sent, ∃ person ∈ fields :: s.saved, data = savePersonToFirebase person := by
  intro data hdata
  obtain ⟨person, hperson, heq⟩ := hi.sent data hdata
  exact ⟨person, List.mem_cons_of_mem _ hperson, heq⟩

theorem formInv_step {u : DecimalDigits} {s s' : RegistrationForm} {e : RegistrationFormEvent}
    (hi : FormInv s) (h : s.step u e = some s') : FormInv s' := by
  cases e with
  | editName text =>
      obtain rfl := Option.some.inj h
      exact ⟨hi.text, hi.asked, hi.number, hi.name, hi.person, hi.saved, hi.sent⟩
  | editNumber range string =>
      obtain ⟨newString, rfl⟩ := step_editNumber h
      exact ⟨PhoneField.formattedNumber_eq u newString, hi.asked, hi.number, hi.name, hi.person,
        hi.saved, hi.sent⟩
  | nextAction =>
      rcases step_nextAction h with rfl | ⟨hchecks, hkey, rfl⟩
      · exact hi
      · have hfull := fullNumber_of_checks hi hchecks
        refine ⟨hi.text, ?_, fun _ => hfull, ?_, ?_, fun p hp => (hi.saved p hp).cons _, hi.sent⟩
        · intro number hnumber
          rcases List.mem_append.mp hnumber with hnumber | hnumber
          · exact (hi.asked number hnumber).cons _
          · rw [List.mem_singleton.mp hnumber]
            exact hfull
        · rintro - press hpress
          obtain rfl := Option.some.inj hpress
          rfl
        · intro hsome
          rw [show s.person.key = none from hkey] at hsome
          cases hsome
  | received i documents =>
      obtain ⟨number, hnumber, ⟨rfl, rfl⟩ | ⟨document, rest, fields, rfl, hname, hphone, rfl⟩⟩ :=
        step_received h
      · have hfull := hi.number (presses_ne_nil hi hnumber)
        refine ⟨hi.text, fun n hn => hi.asked n (List.mem_of_mem_eraseIdx hn), ?_, ?_, ?_, ?_, ?_⟩
        · rw [ManagedObject.fields_saveObject]
          exact fun _ => hfull
        · intro hnone
          have hsome := s.person.key_saveObject s.persons
          rw [show (s.person.saveObject s.persons).2.key = none from hnone] at hsome
          cases hsome
        · rw [ManagedObject.fields_saveObject]
          exact fun _ => List.mem_cons_self
        · exact List.forall_mem_cons.mpr ⟨hfull, hi.saved⟩
        · exact List.forall_mem_cons.mpr ⟨⟨_, List.mem_cons_self, rfl⟩, hi.sent_cons _⟩
      · have hfull : FullNumber s.presses fields.numberPhone :=
          hphone ▸ hi.asked number (List.mem_of_getElem? hnumber)
        refine ⟨hi.text, fun n hn => hi.asked n (List.mem_of_mem_eraseIdx hn), fun _ => hfull, ?_,
          fun _ => List.mem_cons_self, List.forall_mem_cons.mpr ⟨hfull, hi.saved⟩, hi.sent_cons _⟩
        intro hnone
        cases hnone
  | receivedError i =>
      obtain rfl := Option.some.inj h
      exact ⟨hi.text, fun n hn => hi.asked n (List.mem_of_mem_eraseIdx hn), hi.number, hi.name,
        hi.person, hi.saved, hi.sent⟩

/-- Every number being full, the names decide. -/
theorem onlyComplete_iff {s : RegistrationForm} (hi : FormInv s) :
    s.OnlyComplete ↔ ∀ person ∈ s.saved, person.name ≠ "" := by
  constructor
  · intro h person hperson
    exact (h.1 person hperson).1
  · intro h
    have hsaved : ∀ person ∈ s.saved, CompleteAccount s.presses person :=
      fun person hperson => ⟨h person hperson, hi.saved person hperson⟩
    refine ⟨hsaved, ?_⟩
    intro data hdata
    obtain ⟨person, hperson, heq⟩ := hi.sent data hdata
    exact ⟨person, hsaved person hperson, heq⟩

/-- **One step** keeps the accounts complete exactly if a name was entered. -/
theorem onlyComplete_step {u : DecimalDigits} {s s' : RegistrationForm} {e : RegistrationFormEvent}
    (hi : FormInv s) (h : s.step u e = some s') :
    s'.OnlyComplete ↔ s.OnlyComplete ∧ s.NameEntered e := by
  rw [onlyComplete_iff (formInv_step hi h), onlyComplete_iff hi]
  cases e with
  | editName text =>
      obtain rfl := Option.some.inj h
      exact (and_iff_left trivial).symm
  | editNumber range string =>
      obtain ⟨newString, rfl⟩ := step_editNumber h
      exact (and_iff_left trivial).symm
  | nextAction =>
      rcases step_nextAction h with rfl | ⟨-, -, rfl⟩
      · exact (and_iff_left trivial).symm
      · exact (and_iff_left trivial).symm
  | received i documents =>
      obtain ⟨number, hnumber, ⟨rfl, rfl⟩ | ⟨document, rest, fields, rfl, hname, -, rfl⟩⟩ :=
        step_received h
      · -- the name of a person that is not saved yet was entered at the last press
        rw [List.forall_mem_cons, and_comm]
        refine and_congr_right (fun hsaved => ?_)
        show _ ↔ (s.person.key = none → ∀ press ∈ s.presses.head?, press.nameClientReg ≠ "")
        cases hkey : s.person.key with
        | none =>
            obtain ⟨press, rest, hpresses⟩ :=
              List.exists_cons_of_ne_nil (presses_ne_nil hi hnumber)
            have hname := hi.name hkey press (by rw [hpresses]; rfl)
            simp [hpresses, hname]
        | some key =>
            have hperson := hsaved _ (hi.person (by rw [hkey]; rfl))
            simp [hperson]
      · rw [List.forall_mem_cons, and_comm]
        refine and_congr_right (fun _ => ?_)
        show _ ↔ document.data.string? "name" ≠ some ""
        rw [hname, ne_eq, ne_eq, Option.some.injEq]
  | receivedError i =>
      obtain rfl := Option.some.inj h
      exact (and_iff_left trivial).symm

/-! ## The runs -/

/-- **Only complete accounts** are stored and sent in exactly the runs in which a name was entered
for each. -/
theorem onlyComplete_iff_reach (u : DecimalDigits) {s : RegistrationForm}
    (h : (registrationForm u).Reachable s) :
    s.OnlyComplete ↔ (registrationForm u).Reach NameEntered s := by
  refine h.iff_reach FormInv OnlyComplete ?_ (fun _ _ _ hi hs => formInv_step hi hs)
    (fun _ _ _ hi hs => onlyComplete_step hi hs)
  intro s h0
  refine ⟨formInv_init h0, (onlyComplete_iff (formInv_init h0)).mpr ?_⟩
  obtain ⟨-, -, -, -, -, hsaved, -⟩ := h0
  rw [hsaved]
  exact List.forall_mem_nil _

/-- A new screen with empty fields. -/
def blank : RegistrationForm where
  nameClientReg := ""
  infoTextField := ""
  persons := Table.empty
  person := ⟨{}, none⟩
  asked := []
  entered := []
  presses := []
  saved := []
  sent := []

theorem init_blank : (registrationForm DecimalDigits.latin).init blank :=
  ⟨rfl, rfl, rfl, rfl, rfl, rfl, rfl⟩

/-- A name and a number are entered, and there is no user with the number. -/
theorem onlyComplete_named : ∃ s, (registrationForm DecimalDigits.latin).Reachable s ∧
    s.saved = [{ name := "Anna", numberPhone := "+8 (925) 123-4567" }] ∧
    (s.OnlyComplete ↔ (registrationForm DecimalDigits.latin).Reach NameEntered s) := by
  have hrun : ((registrationForm DecimalDigits.latin).exec blank
      [.editName "Anna", .editNumber ⟨0, 0⟩ "8925123456789", .nextAction, .received 0 []]).map
        RegistrationForm.saved
      = some [{ name := "Anna", numberPhone := "+8 (925) 123-4567" }] := by decide
  obtain ⟨s, hs, hsaved⟩ := Option.map_eq_some_iff.mp hrun
  have hreach := EventMachine.reachable_of_exec _ init_blank hs
  exact ⟨s, hreach, hsaved, onlyComplete_iff_reach _ hreach⟩

/-- **An account without a name.** The number alone passes both checks. -/
theorem not_onlyComplete :
    ¬ ∀ s, (registrationForm DecimalDigits.latin).Reachable s → s.OnlyComplete := by
  intro hall
  have hrun : ((registrationForm DecimalDigits.latin).exec blank
      [.editNumber ⟨0, 0⟩ "89251234567", .nextAction, .received 0 []]).map
        (fun s => s.saved.map Person.name) = some [""] := by decide
  obtain ⟨s, hs, hnames⟩ := Option.map_eq_some_iff.mp hrun
  obtain ⟨person, hperson, hname⟩ : ∃ person ∈ s.saved, person.name = "" :=
    List.mem_map.mp (hnames ▸ List.mem_singleton_self "")
  exact ((hall s (EventMachine.reachable_of_exec _ init_blank hs)).1 person hperson).1 hname

end RegistrationForm

end Flamingo
