import Flamingo.PresentService.Overlap
import Flamingo.RegistrationPage.CompleteAccounts

set_option autoImplicit false

/-! # Complete entries

The registration screen and the appointment screen of one app. An account can be saved without a
name, and the appointment screen copies name and number of the account into its fields. It checks
them once more, so what it sends has a name, a full number and a date that the calendar has
returned, whatever the account.
-/

namespace Flamingo

open Text (DecimalDigits NSRange replacingCharacters)

/-- `setupViewElements`: the texts of the name and the phone field. -/
def MakeAppointmentVC.setupViewElements (persons : Table Person) : String × String :=
  match persons.objects.head? with
  | some (_, person) => (person.name, person.numberPhone)
  | none => ("", "")

/-- A new registration screen, after `viewDidLoad`. -/
def RegistrationForm.viewDidLoad (persons : Table Person) : RegistrationForm where
  nameClientReg := ""
  infoTextField := ""
  persons := persons
  person := ⟨{}, none⟩
  asked := []
  entered := []
  presses := []
  saved := []
  sent := []

/-- An entry that was sent, and the date-time that the calendar had returned last. -/
structure SentEntry where
  entry : ServiceEntry
  returned : Option Int

structure AccountForms where
  registration : RegistrationForm
  appointment : Option MakeAppointmentVC
  /-- what the calendar has returned last to the open appointment screen -/
  returned : Option Int
  /-- the digits of the texts that the edits of a number have made, on either screen, and of an
  empty field -/
  typed : List (List Char)
  sent : List SentEntry

inductive AccountFormsEvent
  | registration (e : RegistrationFormEvent)
  | presentRegistration
  | actionPresentMakeApp (now : Int) (service : Service) (masters : List Master)
  | editName (text : String)
  | editPhone (range : NSRange) (string : String)
  | scroll (visibleCells : List Nat)
  | unwindToMakeAppointmentVC (source : CelendarVC)
  | makeAppointment
  | exitAction

namespace AccountForms

/-- The appointment screen is presented when there is an account. -/
def step (u : DecimalDigits) (s : AccountForms) : AccountFormsEvent → Option AccountForms
  | .registration e => (s.registration.step u e).map (fun registration =>
      { s with registration, typed := registration.entered :: s.typed })
  | .presentRegistration => some { s with
      registration := RegistrationForm.viewDidLoad s.registration.persons }
  | .actionPresentMakeApp now service masters =>
      if s.registration.persons.objects.isEmpty then none
      else
        let (name, numberPhone) := MakeAppointmentVC.setupViewElements s.registration.persons
        some { s with
          appointment := some (MakeAppointmentVC.viewDidLoad now service masters name numberPhone)
          returned := none }
  | .editName text => s.appointment.map (fun vc =>
      { s with appointment := some { vc with nameClient := text } })
  | .editPhone range string => do
      let vc ← s.appointment
      let phoneClient ← MakeAppointmentVC.shouldChangeCharactersIn u vc.phoneClient range string
      let newString ← replacingCharacters vc.phoneClient range string
      some { s with
        appointment := some { vc with phoneClient }, typed := u.digits newString :: s.typed }
  | .scroll visibleCells => s.appointment.map (fun vc =>
      { s with appointment := some { vc with visibleCells } })
  | .unwindToMakeAppointmentVC source => s.appointment.map (fun vc =>
      { s with
        appointment := some (vc.unwindToMakeAppointmentVC source)
        returned := source.cellDateDateTime.or s.returned })
  | .makeAppointment => do
      let vc ← s.appointment
      let (vc, entry) ← vc.makeAppointment
      some { s with
        appointment := some vc, sent := s.sent ++ entry.toList.map (⟨·, s.returned⟩) }
  | .exitAction => some { s with appointment := none, returned := none }

end AccountForms

/-- The app on a device without an account. -/
def accountForms (u : DecimalDigits) : EventMachine AccountForms AccountFormsEvent where
  init s := s = ⟨RegistrationForm.viewDidLoad Table.empty, none, none, [[]], []⟩
  step := AccountForms.step u

/-! ## The property -/

/-- The mask filled with the first eleven of digits that were typed. -/
def FullTyped (typed : List (List Char)) (number : String) : Prop :=
  ∃ ds ∈ typed, 11 ≤ ds.length ∧ number = PhoneField.filled (ds.take 11)

structure SentEntry.Complete (typed : List (List Char)) (call : SentEntry) : Prop where
  name : call.entry.nameClient ≠ ""
  number : FullTyped typed call.entry.numberPhoneClient
  date : call.returned = some call.entry.dttmEntry

theorem FullTyped.cons {typed : List (List Char)} {number : String} (h : FullTyped typed number)
    (ds : List Char) : FullTyped (ds :: typed) number := by
  obtain ⟨ds', hds', hfull⟩ := h
  exact ⟨ds', List.mem_cons_of_mem _ hds', hfull⟩

theorem SentEntry.Complete.cons {typed : List (List Char)} {call : SentEntry}
    (h : call.Complete typed) (ds : List Char) : call.Complete (ds :: typed) :=
  ⟨h.name, h.number.cons ds, h.date⟩

/-- A text that fills the mask and passes the check of the count is full. -/
theorem fullTyped_of_length {typed : List (List Char)} {ds : List Char} (hds : ds ∈ typed)
    (hlength : (PhoneField.filled ds).length = 17) : FullTyped typed (PhoneField.filled ds) := by
  refine ⟨ds, hds, (PhoneField.length_filled_eq_iff ds).mp hlength, ?_⟩
  rw [PhoneField.filled_take]

theorem fullTyped_of_fullNumber {typed : List (List Char)} {presses : List Press}
    (hpresses : ∀ press ∈ presses, press.digits ∈ typed) {number : String}
    (h : FullNumber presses number) : FullTyped typed number := by
  obtain ⟨press, hpress, hcount, hnumber⟩ := h
  exact ⟨press.digits, hpresses press hpress, hcount, hnumber⟩

/-! ## What the operations do -/

/-- What a step of the registration screen adds to the presses and to the stored persons. -/
theorem RegistrationForm.step_adds {u : DecimalDigits} {s s' : RegistrationForm}
    {e : RegistrationFormEvent} (hi : FormInv s) (h : s.step u e = some s') :
    (∀ press ∈ s'.presses, press ∈ s.presses ∨ press.digits = s.entered) ∧
      ∀ o ∈ s'.persons.objects,
        o ∈ s.persons.objects ∨ FullNumber s.presses o.2.numberPhone := by
  cases e with
  | editName text =>
      obtain rfl := Option.some.inj h
      exact ⟨fun _ => Or.inl, fun _ => Or.inl⟩
  | editNumber range string =>
      obtain ⟨newString, rfl⟩ := step_editNumber h
      exact ⟨fun _ => Or.inl, fun _ => Or.inl⟩
  | nextAction =>
      rcases step_nextAction h with rfl | ⟨-, -, rfl⟩
      · exact ⟨fun _ => Or.inl, fun _ => Or.inl⟩
      · refine ⟨?_, fun _ => Or.inl⟩
        intro press hpress
        rcases List.mem_cons.mp hpress with rfl | hpress
        · exact Or.inr rfl
        · exact Or.inl hpress
  | received i documents =>
      obtain ⟨number, hnumber, ⟨rfl, rfl⟩ | ⟨document, rest, fields, rfl, -, hphone, rfl⟩⟩ :=
        step_received h
      · refine ⟨fun _ => Or.inl, ?_⟩
        intro o ho
        rcases ManagedObject.mem_saveObject ho with ho | ho
        · exact Or.inl ho
        · rw [ho]
          exact Or.inr (hi.number (presses_ne_nil hi hnumber))
      · refine ⟨fun _ => Or.inl, ?_⟩
        intro o ho
        rcases List.mem_append.mp ho with ho | ho
        · exact Or.inl ho
        · rw [List.mem_singleton.mp ho]
          exact Or.inr (hphone ▸ hi.asked number (List.mem_of_getElem? hnumber))
  | receivedError i =>
      obtain rfl := Option.some.inj h
      exact ⟨fun _ => Or.inl, fun _ => Or.inl⟩

/-- The texts of an entry that is sent are those of the fields. -/
theorem MakeAppointmentVC.makeAppointment_texts {vc vc' : MakeAppointmentVC} {entry : ServiceEntry}
    (h : vc.makeAppointment = some (vc', some entry)) :
    entry.nameClient = vc.nameClient ∧ entry.numberPhoneClient = vc.phoneClient := by
  unfold makeAppointment at h
  split_ifs at h
  · simp only [Option.bind_eq_bind] at h
    obtain ⟨collected, hcollect, h⟩ := Option.bind_eq_some_iff.mp h
    simp only [collectServiceEntry, Option.bind_eq_bind] at hcollect
    obtain ⟨master, -, hcollect⟩ := Option.bind_eq_some_iff.mp hcollect
    obtain rfl := Option.some.inj hcollect
    simp only [Option.some.injEq, Prod.mk.injEq] at h
    obtain ⟨-, rfl⟩ := h
    exact ⟨rfl, rfl⟩
  · simp at h

/-- The three checks. -/
theorem MakeAppointmentVC.checks_iff (vc : MakeAppointmentVC) :
    (vc.checkNameClient && vc.checkPhoneClient && vc.checkDataEntry) = true ↔
      vc.nameClient ≠ "" ∧ vc.phoneClient.length = 17 ∧ vc.dataReceipt.isSome := by
  have hphone : vc.checkPhoneClient = true ↔ vc.phoneClient.length = 17 := by
    unfold checkPhoneClient
    rw [Bool.not_eq_true', Bool.or_eq_false_iff, bne_eq_false_iff_eq]
    constructor
    · exact fun h => h.2
    · intro hlength
      refine ⟨?_, hlength⟩
      rw [String.isEmpty_eq_false_iff]
      intro hempty
      rw [hempty] at hlength
      cases hlength
  have hname : vc.checkNameClient = true ↔ vc.nameClient ≠ "" := by
    unfold checkNameClient
    rw [Bool.not_eq_true', String.isEmpty_eq_false_iff]
  rw [Bool.and_eq_true, Bool.and_eq_true, hphone, hname, and_assoc]
  rfl

namespace AccountForms

/-! ## What the steps keep -/

structure Inv (s : AccountForms) : Prop where
  form : RegistrationForm.FormInv s.registration
  blank : [] ∈ s.typed
  entered : s.registration.entered ∈ s.typed
  presses : ∀ press ∈ s.registration.presses, press.digits ∈ s.typed
  persons : ∀ o ∈ s.registration.persons.objects, FullTyped s.typed o.2.numberPhone
  /-- the phone field shows the mask filled with what was typed on one of the screens -/
  phone : ∀ vc ∈ s.appointment, ∃ ds ∈ s.typed, vc.phoneClient = PhoneField.filled ds
  date : ∀ vc ∈ s.appointment, vc.dataReceipt.isSome → s.returned = some vc.dateEntry
  sent : ∀ call ∈ s.sent, call.Complete s.typed

variable {u : DecimalDigits}

theorem formInv_viewDidLoad (persons : Table Person) :
    RegistrationForm.FormInv (RegistrationForm.viewDidLoad persons) := by
  have hinit : (registrationForm DecimalDigits.latin).init (RegistrationForm.viewDidLoad persons) :=
    ⟨rfl, rfl, rfl, rfl, rfl, rfl, rfl⟩
  exact RegistrationForm.formInv_init hinit

theorem inv_init {s : AccountForms} (h : (accountForms u).init s) : Inv s := by
  obtain rfl := h
  constructor
  · exact formInv_viewDidLoad Table.empty
  · exact List.mem_singleton_self []
  · exact List.mem_singleton_self []
  · exact List.forall_mem_nil _
  · exact List.forall_mem_nil _
  · intro vc hvc
    cases hvc
  · intro vc hvc
    cases hvc
  · exact List.forall_mem_nil _

theorem inv_registration {s s' : AccountForms} {e : RegistrationFormEvent} (hi : Inv s)
    (h : s.step u (.registration e) = some s') : Inv s' := by
  obtain ⟨registration, hstep, rfl⟩ := Option.map_eq_some_iff.mp h
  obtain ⟨hpresses, hpersons⟩ := RegistrationForm.step_adds hi.form hstep
  refine ⟨RegistrationForm.formInv_step hi.form hstep, List.mem_cons_of_mem _ hi.blank,
    List.mem_cons_self, ?_, ?_, ?_, hi.date,
    fun call hcall => (hi.sent call hcall).cons _⟩
  · intro press hpress
    apply List.mem_cons_of_mem
    rcases hpresses press hpress with hold | hnew
    · exact hi.presses press hold
    · rw [hnew]
      exact hi.entered
  · intro o ho
    rcases hpersons o ho with hold | hnew
    · exact (hi.persons o hold).cons _
    · exact (fullTyped_of_fullNumber hi.presses hnew).cons _
  · intro vc hvc
    obtain ⟨ds, hds, hphone⟩ := hi.phone vc hvc
    exact ⟨ds, List.mem_cons_of_mem _ hds, hphone⟩

/-- The fields show the first account, and no date yet. -/
theorem inv_actionPresentMakeApp {s s' : AccountForms} {now : Int} {service : Service}
    {masters : List Master} (hi : Inv s)
    (h : s.step u (.actionPresentMakeApp now service masters) = some s') : Inv s' := by
  cases hpersons : s.registration.persons.objects with
  | nil =>
      rw [step, hpersons] at h
      cases h
  | cons o rest =>
      rw [step, hpersons] at h
      obtain rfl := Option.some.inj h
      refine ⟨hi.form, hi.blank, hi.entered, hi.presses, hi.persons, ?_, ?_, hi.sent⟩
      · rintro _ hvc
        obtain rfl := Option.some.inj hvc
        have hfirst : (MakeAppointmentVC.setupViewElements s.registration.persons).2
            = o.2.numberPhone := by
          rw [MakeAppointmentVC.setupViewElements, hpersons]
          rfl
        obtain ⟨ds, hds, -, hnumber⟩ := hi.persons o (hpersons ▸ List.mem_cons_self)
        refine ⟨ds, hds, ?_⟩
        show (MakeAppointmentVC.setupViewElements s.registration.persons).2 = _
        rw [hfirst, hnumber, PhoneField.filled_take]
      · rintro _ hvc hsome
        obtain rfl := Option.some.inj hvc
        cases hsome

/-- A change of the appointment screen that leaves its number and its date. -/
theorem inv_of_same {s : AccountForms} {vc vc' : MakeAppointmentVC} (hi : Inv s)
    (hvc : s.appointment = some vc) (hphone : vc'.phoneClient = vc.phoneClient)
    (hreceipt : vc'.dataReceipt = vc.dataReceipt) (hdate : vc'.dateEntry = vc.dateEntry) :
    Inv { s with appointment := some vc' } where
  __ := hi
  phone := by
    rintro _ hvc'
    obtain rfl := Option.some.inj hvc'
    rw [hphone]
    exact hi.phone vc hvc
  date := by
    rintro _ hvc' hsome
    obtain rfl := Option.some.inj hvc'
    rw [hreceipt] at hsome
    rw [hdate]
    exact hi.date vc hvc hsome

theorem inv_editPhone {s s' : AccountForms} {range : NSRange} {string : String} (hi : Inv s)
    (h : s.step u (.editPhone range string) = some s') : Inv s' := by
  simp only [step, Option.bind_eq_bind] at h
  obtain ⟨vc, hvc, h⟩ := Option.bind_eq_some_iff.mp h
  obtain ⟨phoneClient, hphone, h⟩ := Option.bind_eq_some_iff.mp h
  obtain ⟨newString, hnew, h⟩ := Option.bind_eq_some_iff.mp h
  obtain rfl := Option.some.inj h
  refine ⟨hi.form, List.mem_cons_of_mem _ hi.blank, List.mem_cons_of_mem _ hi.entered,
    fun press hpress => List.mem_cons_of_mem _ (hi.presses press hpress),
    fun o ho => (hi.persons o ho).cons _, ?_, ?_, fun call hcall => (hi.sent call hcall).cons _⟩
  · rintro _ hvc'
    obtain rfl := Option.some.inj hvc'
    obtain ⟨newString', hnew', rfl⟩ := Option.map_eq_some_iff.mp hphone
    obtain rfl := Option.some.inj (hnew'.symm.trans hnew)
    exact ⟨_, List.mem_cons_self, PhoneField.formattedNumber_eq u newString'⟩
  · rintro _ hvc'
    obtain rfl := Option.some.inj hvc'
    exact hi.date vc hvc

/-- A calendar that is left without a time leaves the date as it is. -/
theorem inv_unwind {s s' : AccountForms} {source : CelendarVC} (hi : Inv s)
    (h : s.step u (.unwindToMakeAppointmentVC source) = some s') : Inv s' := by
  obtain ⟨vc, hvc, rfl⟩ := Option.map_eq_some_iff.mp h
  refine ⟨hi.form, hi.blank, hi.entered, hi.presses, hi.persons, ?_, ?_, hi.sent⟩
  · rintro _ hvc'
    obtain rfl := Option.some.inj hvc'
    have hsame : (vc.unwindToMakeAppointmentVC source).phoneClient = vc.phoneClient := by
      unfold MakeAppointmentVC.unwindToMakeAppointmentVC
      cases source.cellDateDateTime <;> rfl
    rw [hsame]
    exact hi.phone vc hvc
  · rintro _ hvc' hsome
    obtain rfl := Option.some.inj hvc'
    cases hdate : source.cellDateDateTime with
    | some t =>
        rw [MakeAppointmentVC.unwind_of_some hdate]
        rfl
    | none =>
        have hsame : vc.unwindToMakeAppointmentVC source = { vc with cellDateDateTime := none } := by
          unfold MakeAppointmentVC.unwindToMakeAppointmentVC
          rw [hdate]
        rw [hsame] at hsome ⊢
        exact hi.date vc hvc hsome

/-- **A press** sends what the checks have let through. -/
theorem inv_makeAppointment {s s' : AccountForms} (hi : Inv s)
    (h : s.step u .makeAppointment = some s') : Inv s' := by
  simp only [step, Option.bind_eq_bind] at h
  obtain ⟨vc, hvc, h⟩ := Option.bind_eq_some_iff.mp h
  obtain ⟨⟨vc', entry⟩, hmake, h⟩ := Option.bind_eq_some_iff.mp h
  obtain rfl := Option.some.inj h
  cases entry with
  | none =>
      obtain ⟨-, rfl⟩ := MakeAppointmentVC.makeAppointment_of_none hmake
      refine ⟨hi.form, hi.blank, hi.entered, hi.presses, hi.persons, ?_, ?_, ?_⟩
      · exact fun _ hvc' => hi.phone _ (hvc.trans hvc')
      · exact fun _ hvc' => hi.date _ (hvc.trans hvc')
      · intro call hcall
        exact hi.sent call (by simpa using hcall)
  | some entry =>
      obtain ⟨hchecks, -, hdate, -, rfl⟩ := MakeAppointmentVC.makeAppointment_spec hmake
      obtain ⟨hname, hlength, hsome⟩ := vc.checks_iff.mp hchecks
      obtain ⟨hnameClient, hphoneClient⟩ := MakeAppointmentVC.makeAppointment_texts hmake
      have hkept : Inv { s with
          appointment := some { vc with additingNewEntry := true, serviceEntry := entry } } :=
        inv_of_same hi hvc rfl rfl rfl
      refine { hkept with sent := ?_ }
      intro call hcall
      rcases List.mem_append.mp hcall with hcall | hcall
      · exact hi.sent call hcall
      · obtain rfl := List.mem_singleton.mp hcall
        refine ⟨by rw [hnameClient]; exact hname, ?_, by rw [hdate]; exact hi.date vc hvc hsome⟩
        obtain ⟨ds, hds, hphone⟩ := hi.phone vc hvc
        rw [hphoneClient, hphone]
        exact fullTyped_of_length hds (hphone ▸ hlength)

theorem inv_step {s s' : AccountForms} {e : AccountFormsEvent} (hi : Inv s)
    (h : s.step u e = some s') : Inv s' := by
  cases e with
  | registration e => exact inv_registration hi h
  | presentRegistration =>
      obtain rfl := Option.some.inj h
      exact ⟨formInv_viewDidLoad _, hi.blank, hi.blank, List.forall_mem_nil _, hi.persons, hi.phone,
        hi.date, hi.sent⟩
  | actionPresentMakeApp now service masters => exact inv_actionPresentMakeApp hi h
  | editName text =>
      obtain ⟨vc, hvc, rfl⟩ := Option.map_eq_some_iff.mp h
      exact inv_of_same hi hvc rfl rfl rfl
  | editPhone range string => exact inv_editPhone hi h
  | scroll visibleCells =>
      obtain ⟨vc, hvc, rfl⟩ := Option.map_eq_some_iff.mp h
      exact inv_of_same hi hvc rfl rfl rfl
  | unwindToMakeAppointmentVC source => exact inv_unwind hi h
  | makeAppointment => exact inv_makeAppointment hi h
  | exitAction =>
      obtain rfl := Option.some.inj h
      refine ⟨hi.form, hi.blank, hi.entered, hi.presses, hi.persons, ?_, ?_, hi.sent⟩
      · rintro _ hvc
        cases hvc
      · rintro _ hvc
        cases hvc

end AccountForms

/-! ## The runs -/

/-- **Every entry that is sent is complete.** Whatever accounts the registration screens have saved,
an entry has a name, a full number that was typed on one of the screens, and the date-time that the
calendar has returned last. -/
theorem entries_complete (u : DecimalDigits) (s : AccountForms) (h : (accountForms u).Reachable s) :
    ∀ call ∈ s.sent, call.Complete s.typed := by
  have hi : AccountForms.Inv s :=
    h.invariant AccountForms.Inv (fun _ => AccountForms.inv_init)
      (fun _ _ _ hi _ hs => AccountForms.inv_step hi hs)
  exact hi.sent

/-- The calendar has returned the fifth of February. -/
def returnedCalendar : CelendarVC where
  service := hourService
  master := { id := "anna" }
  month := 1
  year := 2020
  currentMonth := "Февраль"
  firstWeeakDayMonth := 6
  nextMonthButton := true
  backMonthButton := false
  dateDate := february2020
  arrayDateSetviceEntry := []
  cellDateDateTime := some fifth
  arrayTimesBlock := []
  tableViewTimeHidden := true
  activeIndTimeHidden := true

/-- An account without a name is saved. The first press sends nothing; a name is entered and a date
is chosen before the second one. -/
theorem entries_complete_nameless : ∃ s : AccountForms,
    s.registration.persons.objects.map (fun o => o.2.name) = [""] ∧
    s.sent.map (fun call => (call.entry.nameClient, call.entry.numberPhoneClient,
      call.entry.dttmEntry)) = [("Anna", "+8 (925) 123-4567", fifth)] ∧
    ∀ call ∈ s.sent, call.Complete s.typed := by
  have hrun : ((accountForms DecimalDigits.latin).exec
      ⟨RegistrationForm.viewDidLoad Table.empty, none, none, [[]], []⟩
      [.registration (.editNumber ⟨0, 0⟩ "89251234567"), .registration .nextAction,
        .registration (.received 0 []), .actionPresentMakeApp february2020 hourService [],
        .makeAppointment, .editName "Anna", .unwindToMakeAppointmentVC returnedCalendar,
        .makeAppointment]).map
      (fun s => (s.registration.persons.objects.map (fun o => o.2.name),
        s.sent.map (fun call => (call.entry.nameClient, call.entry.numberPhoneClient,
          call.entry.dttmEntry))))
      = some ([""], [("Anna", "+8 (925) 123-4567", fifth)]) := by decide
  obtain ⟨s, hs, hend⟩ := Option.map_eq_some_iff.mp hrun
  obtain ⟨hnames, hsent⟩ := Prod.mk.inj hend
  exact ⟨s, hnames, hsent, entries_complete _ s (EventMachine.reachable_of_exec _ rfl hs)⟩

end Flamingo
